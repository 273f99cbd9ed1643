import LoadShape.Time.WaitSteps
import Mathlib.Algebra.Order.Floor.Div

/-!
# The end of a wait

Every reading brings the clock nearer to the deadline, and so a wait ends: with the first reading
that has reached the deadline.  If all readings cost the same, their number is that of the ticks in
the last stretch of the wait.
-/

namespace LoadShape.Time

/-! ## Readings that cost the same -/

/-- Some time is filled by one tick and by those that fill the rest of it. -/
theorem ceilDiv_eq_succ {time tick : Nat} (some_time : 0 < time) (some_tick : 0 < tick) :
    time ⌈/⌉ tick = (time - tick) ⌈/⌉ tick + 1 := by
  rw [Nat.ceilDiv_eq_add_pred_div, Nat.ceilDiv_eq_add_pred_div]
  have counted : time + tick - 1 = time - 1 + tick := by omega
  rw [counted, Nat.add_div_right _ some_tick]
  rcases Nat.lt_or_ge time tick with short | long
  · rw [Nat.sub_eq_zero_of_le short.le, Nat.zero_add, Nat.div_eq_of_lt (by omega),
      Nat.div_eq_of_lt (by omega)]
  · have same : time - tick + tick - 1 = time - 1 := by omega
    rw [same]

/-- If all readings cost the same tick, then the first one that has reached the deadline comes after
as many others as it takes ticks until then. -/
theorem firstReading_fst_of_constant {c : ReadingCost} {tick : Nat} (steady : ∀ i, c.cost i = tick)
    (deadline i now : Nat) :
    (firstReading c deadline i now).1 = i + (deadline - now) ⌈/⌉ tick := by
  have some_tick : 0 < tick := steady 0 ▸ c.cost_pos 0
  fun_induction firstReading c deadline i now with
  | case1 i now reached => rw [Nat.sub_eq_zero_of_le reached, zero_ceilDiv, Nat.add_zero]
  | case2 i now early ih =>
      have rest : 0 < deadline - now := Nat.sub_pos_of_lt (not_le.mp early)
      rw [ih, steady i, ceilDiv_eq_succ rest some_tick, Nat.sub_add_eq]
      omega

/-! ## The readings of a wait -/

/-- What the readings of a clock that advances cost. -/
def Clock.Advances.costs {clock : Clock} (advances : clock.Advances) : ReadingCost :=
  ⟨clock.cost, advances⟩

namespace Wait

variable {clock : Clock} {w : Wait} {deadline : Nat}

theorem step?_of_early (watching : w.stage = .watching deadline) (early : w.now < deadline) :
    w.step? clock = some (w.read clock (.watching deadline)) := by
  unfold step?
  rw [watching]
  simp only [if_pos early]

theorem step?_of_reached (watching : w.stage = .watching deadline) (reached : deadline ≤ w.now) :
    w.step? clock = some (w.read clock .over) := by
  unfold step?
  rw [watching]
  simp only [if_neg (not_lt.mpr reached)]

/-- The wait is over; it has gone on with readings that returned the instants in `early`, and with
reading number `i`, which returned `last`. -/
structure EndsWith (clock : Clock) (w : Wait) (early : List Nat) (i last : Nat) (finish : Wait) :
    Prop where
  ends : w.Ends clock finish
  finished : finish.stage = .over
  requests : finish.requests = w.requests ++ early.map .reading ++ [.reading last]
  taken : i = w.taken + early.length
  now : finish.now = last + clock.cost i

/-- One reading brings the wait to its end if it has reached the deadline. -/
theorem endsWith_of_reached (watching : w.stage = .watching deadline) (reached : deadline ≤ w.now) :
    EndsWith clock w [] w.taken w.now (w.read clock .over) where
  ends := .step (step?_of_reached watching reached) (.ended rfl)
  finished := rfl
  requests := by
    rw [List.map_nil, List.append_nil]
    rfl
  taken := rfl
  now := rfl

/-- An early reading stands before those that come after it. -/
theorem EndsWith.of_early {early : List Nat} {i last : Nat} {finish : Wait}
    (watching : w.stage = .watching deadline) (sooner : w.now < deadline)
    (rest : EndsWith clock (w.read clock (.watching deadline)) early i last finish) :
    EndsWith clock w (w.now :: early) i last finish where
  ends := .step (step?_of_early watching sooner) rest.ends
  finished := rest.finished
  requests := by
    rw [rest.requests, List.map_cons, read, List.append_assoc w.requests]
    rfl
  taken := by
    rw [rest.taken, read, List.length_cons]
    simp only
    omega
  now := rest.now

/-- The readings of a wait end with the first one that has reached the deadline.  The induction
follows the search for that reading, each step of which brings the clock nearer to the
deadline. -/
theorem exists_endsWith (advances : clock.Advances) (i now : Nat)
    (watching : w.stage = .watching deadline) (taken : w.taken = i) (moved : w.now = now) :
    ∃ early finish,
      EndsWith clock w early (firstReading advances.costs deadline i now).1
        (firstReading advances.costs deadline i now).2 finish ∧
      ∀ instant ∈ early, instant < deadline := by
  fun_induction firstReading advances.costs deadline i now generalizing w with
  | case1 i now reached =>
      subst taken moved
      exact ⟨[], _, endsWith_of_reached watching reached, List.forall_mem_nil _⟩
  | case2 i now late ih =>
      subst taken moved
      have sooner : w.now < deadline := not_le.mp late
      obtain ⟨early, finish, rest, before⟩ :=
        ih (w := w.read clock (.watching deadline)) rfl rfl rfl
      exact ⟨w.now :: early, finish, rest.of_early watching sooner,
        List.forall_mem_cons.mpr ⟨sooner, before⟩⟩

/-! ## The whole wait -/

theorem pacedSleep_of_firstReading {c : ReadingCost} {now wait last reading : Nat}
    (nonzero : wait ≠ 0)
    (first : firstReading c (now + wait) 1 (now + c.cost 0 + (wait - spinStretch)) =
      (last, reading)) :
    pacedSleep c now wait =
      { slept := wait - spinStretch
        readings := last + 1
        lastReading := reading
        finished := reading + c.cost last } := by
  fun_cases pacedSleep c now wait with
  | case1 zero => exact absurd zero nonzero
  | case2 _ slept i instant found =>
      cases found.symm.trans first
      rfl

/-- The sleep of a wait: all but its last stretch, and none if there is no more than that. -/
def sleepOf (length : Nat) : List ClockRequest :=
  if spinStretch < length then [.sleep (length - spinStretch)] else []

/-- The wait when its deadline is set and its sleep is over. -/
def rested (clock : Clock) (now length : Nat) : Wait where
  length
  now := now + clock.cost 0 + (length - spinStretch)
  taken := 1
  requests := .reading now :: sleepOf length
  stage := .watching (now + length)

/-- A wait reads the clock and sleeps before it watches the clock. -/
theorem ends_begin_iff {now length : Nat} {finish : Wait} (some_time : 0 < length)
    (in_range : now + length ≤ clock.last) :
    (begin now length).Ends clock finish ↔ (rested clock now length).Ends clock finish := by
  have nonzero : length ≠ 0 := some_time.ne'
  have set : (begin now length).step? clock =
      some ((begin now length).read clock (.resting (now + length))) := by
    simp [begin, step?, nonzero, in_range]
  have slept : ((begin now length).read clock (.resting (now + length))).step? clock =
      some (rested clock now length) := by
    by_cases long : spinStretch < length
    · simp [begin, read, step?, sleep, rested, sleepOf, long]
    · have short : length - spinStretch = 0 := Nat.sub_eq_zero_of_le (not_lt.mp long)
      simp [begin, read, step?, rested, sleepOf, long, short]
  rw [ends_iff_of_step set, ends_iff_of_step slept]

/-- If all readings cost the same tick, then those after the sleep are as many as it takes ticks to
fill the last stretch. -/
theorem taken_of_constant {c : ReadingCost} {tick : Nat} (steady : ∀ i, c.cost i = tick)
    {now length : Nat} (some_time : 0 < length) :
    (firstReading c (now + length) 1 (now + c.cost 0 + (length - spinStretch))).1 =
      min length spinStretch ⌈/⌉ tick := by
  have some_tick : 0 < tick := steady 0 ▸ c.cost_pos 0
  have stretch : 0 < spinStretch := by decide
  have left : now + length - (now + c.cost 0 + (length - spinStretch)) =
      min length spinStretch - tick := by
    rw [steady 0]
    omega
  rw [firstReading_fst_of_constant steady, left,
    ceilDiv_eq_succ (Nat.lt_min.mpr ⟨some_time, stretch⟩) some_tick, Nat.add_comm]

/-! ## Clocks that stand still -/

theorem not_ends_of_watching {finish : Wait} (still : ∀ i, clock.cost i = 0)
    (watching : w.stage = .watching deadline) (early : w.now < deadline) :
    ¬ w.Ends clock finish := by
  intro ends
  induction ends with
  | ended done => cases (step?_of_early watching early).symm.trans done
  | step goesOn _ ih =>
      cases (step?_of_early watching early).symm.trans goesOn
      refine ih rfl ?_
      rw [read, still]
      exact early

/-- On a clock that stands still no wait ever ends. -/
theorem not_ends_of_still (still : ∀ i, clock.cost i = 0) {now length : Nat} {finish : Wait}
    (some_time : 0 < length) (in_range : now + length ≤ clock.last) :
    ¬ (begin now length).Ends clock finish := by
  rw [ends_begin_iff some_time in_range]
  refine not_ends_of_watching still rfl ?_
  have stretch : 0 < spinStretch := Nat.zero_lt_succ _
  simp only [rested, still]
  omega

/-! ## The end -/

/-- On a clock that moves on with every reading and can show the deadline, a wait of some length
ends, and in one way only.  It reads the clock once, sleeps through all but the last stretch if it
is longer than that, and goes on reading; all of its readings but the last are before the deadline,
and the last one is not.  If all readings cost the same tick, then those after the sleep are as
many as it takes ticks to fill the last stretch, or the whole wait if that is shorter. -/
theorem ends_at_first_reading (advances : clock.Advances) {now length : Nat}
    (some_time : 0 < length) (in_range : now + length ≤ clock.last) :
    ∃ early last finish,
      (∀ other, (begin now length).Ends clock other ↔ other = finish) ∧
      finish.stage = .over ∧
      finish.requests =
        .reading now :: sleepOf length ++ early.map .reading ++ [.reading last] ∧
      (∀ instant ∈ now :: early, instant < now + length) ∧ now + length ≤ last ∧
      pacedSleep advances.costs now length =
        { slept := length - spinStretch
          readings := early.length + 2
          lastReading := last
          finished := finish.now } ∧
      ∀ tick, (∀ i, clock.cost i = tick) →
        early.length + 1 = min length spinStretch ⌈/⌉ tick := by
  obtain ⟨⟨i, last⟩, first⟩ : ∃ first, firstReading advances.costs (now + length) 1
      (now + clock.cost 0 + (length - spinStretch)) = first := ⟨_, rfl⟩
  have reached := le_firstReading advances.costs (now + length) 1
    (now + clock.cost 0 + (length - spinStretch))
  obtain ⟨early, finish, rest, before⟩ :=
    exists_endsWith (w := rested clock now length) advances 1
      (now + clock.cost 0 + (length - spinStretch)) rfl rfl rfl
  rw [first] at reached rest
  have ends := (ends_begin_iff some_time in_range).mpr rest.ends
  have taken : i = 1 + early.length := rest.taken
  refine ⟨early, last, finish, fun other => ⟨fun ends_other => ends_other.unique ends, ?_⟩,
    rest.finished, rest.requests, ?_, reached, ?_, fun tick steady => ?_⟩
  · rintro rfl
    exact ends
  · exact List.forall_mem_cons.mpr ⟨Nat.lt_add_of_pos_right some_time, before⟩
  · have readings : i + 1 = early.length + 2 := by omega
    rw [pacedSleep_of_firstReading some_time.ne' first, readings, rest.now]
    rfl
  · have counted : (firstReading advances.costs (now + length) 1
        (now + clock.cost 0 + (length - spinStretch))).1 = min length spinStretch ⌈/⌉ tick :=
      taken_of_constant (c := advances.costs) steady some_time
    rw [first, taken, Nat.add_comm] at counted
    exact counted

/-- Half a millisecond with readings of 90 microseconds: three of them fill the last stretch. -/
theorem ends_at_first_reading_third :
    let clock : Clock := ⟨1000000000, fun _ => 90000⟩
    let finish : Wait :=
      { length := 500000
        now := 661000
        taken := 4
        requests :=
          [.reading 1000, .sleep 300000, .reading 391000, .reading 481000, .reading 571000]
        stage := .over }
    clock.Advances ∧ 0 < 500000 ∧ 1000 + 500000 ≤ clock.last ∧
      (begin 1000 500000).Ends clock finish ∧
      pacedSleep (.constant 90000 (by decide)) 1000 500000 =
        { slept := 300000, readings := 4, lastReading := 571000, finished := 661000 } := by
  intro clock finish
  have advances : clock.Advances := fun _ => Nat.zero_lt_succ _
  have some_time : 0 < 500000 := by decide
  have in_range : 1000 + 500000 ≤ clock.last := by decide
  obtain ⟨early, last, only, ends_iff, -, requests, -, -, record, count⟩ :=
    ends_at_first_reading advances some_time in_range
  have ends : (begin 1000 500000).Ends clock finish := by
    have reached : finish = (((rested clock 1000 500000).read clock (.watching 501000)).read clock
        (.watching 501000)).read clock .over := by
      decide +kernel
    rw [ends_begin_iff some_time in_range, reached]
    refine .step (step?_of_early rfl ?_) (.step (step?_of_early rfl ?_)
      (.step (step?_of_reached rfl ?_) (.ended rfl)))
    · decide +kernel
    · decide +kernel
    · decide +kernel
  obtain rfl : finish = only := (ends_iff finish).mp ends
  have three : min 500000 spinStretch ⌈/⌉ 90000 = 3 := by decide +kernel
  have readings : early.length + 1 = 3 := (count 90000 fun _ => rfl).trans three
  have reading : last = 571000 := by
    have shown := congrArg List.getLast? requests
    rw [List.getLast?_concat] at shown
    cases shown
    rfl
  refine ⟨advances, some_time, in_range, ends, record.trans ?_⟩
  rw [Nat.succ_inj.mp readings, reading]
  rfl

end Wait

end LoadShape.Time
