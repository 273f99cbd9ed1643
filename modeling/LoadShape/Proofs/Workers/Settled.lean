import LoadShape.Proofs.Workers.Production

/-!
# Settled runs

A run is settled when its ticker has gone on for as long as it can: then the stream is
full and one more tick is offered, or the run is over.  Taking a tick from a settled
run, and letting the ticker go on, gives the next settled run.
-/

namespace LoadShape.Workers

open LoadShape.Time

namespace Run

variable {source : TickSource} {capacity : Nat} {r s : Run}

theorem settle_of_step (h : r.step? source capacity = some s) :
    r.settle source capacity = s.settle source capacity := by
  rw [settle]
  split
  · rename_i next hnext
    rw [h] at hnext
    cases hnext
    rfl
  · rename_i hnext
    rw [h] at hnext
    cases hnext

theorem settle_of_stuck (h : r.step? source capacity = none) :
    r.settle source capacity = r := by
  rw [settle]
  split
  · rename_i next hnext
    rw [h] at hnext
    cases hnext
  · rfl

theorem settleLog_of_step (h : r.step? source capacity = some s) :
    r.settleLog source capacity = (r.production? s).toList ++ s.settleLog source capacity := by
  rw [settleLog]
  split
  · rename_i next hnext
    rw [h] at hnext
    cases hnext
    rfl
  · rename_i hnext
    rw [h] at hnext
    cases hnext

theorem settleLog_of_stuck (h : r.step? source capacity = none) :
    r.settleLog source capacity = [] := by
  rw [settleLog]
  split
  · rename_i next hnext
    rw [h] at hnext
    cases hnext
  · rfl

/-- The clock moves only to an instant at which a tick is produced. -/
theorem clock_of_step (h : r.step? source capacity = some s) :
    s.clock = ((r.production? s).map (·.instant)).getD r.clock := by
  unfold step? at h
  split at h
  · rename_i due workers waiting
    dsimp only at h
    split at h <;> injection h with h <;> subst h <;> simp [production?, waiting]
  · rename_i tick due workers offering
    split at h
    · injection h with h
      subst h
      simp [production?, offering]
    · cases h
  · cases h

/-- A ticker that goes on for as long as it can leaves the clock at its last production. -/
theorem clock_settle (source : TickSource) (capacity : Nat) (r : Run) :
    (r.settle source capacity).clock =
      ((r.settleLog source capacity).getLast?.map (·.instant)).getD r.clock := by
  induction r using settle.induct source capacity with
  | case1 r s step ih =>
      rw [settle_of_step step, settleLog_of_step step, ih, clock_of_step step,
        List.getLast?_append]
      cases (s.settleLog source capacity).getLast? with
      | none => cases r.production? s <;> rfl
      | some last => rfl
  | case2 r stuck =>
      rw [settle_of_stuck stuck, settleLog_of_stuck stuck]
      rfl

/-- Taking a tick takes no time. -/
theorem clock_take? {tick : Tick} (h : r.take? = some (tick, s)) : s.clock = r.clock := by
  unfold take? at h
  split at h
  · cases h
    rfl
  · split at h
    · cases h
      rfl
    · cases h

/-- A run that is over goes no further. -/
theorem settle_ended (source : TickSource) (capacity clock : Nat) (queue : List Tick)
    (outcome : Except TickerFault Unit) :
    (Run.mk clock queue (.ended outcome)).settle source capacity =
        ⟨clock, queue, .ended outcome⟩ ∧
      (Run.mk clock queue (.ended outcome)).settleLog source capacity = [] :=
  ⟨settle_of_stuck rfl, settleLog_of_stuck rfl⟩

variable (source) (instants : Nat → Nat) (clock n : Nat) (queue : List Tick)

/-- A full stream takes no tick from the ticker. -/
theorem settle_full (full : capacity ≤ queue.length) :
    (Run.mk clock queue (source.offers instants n)).settle source capacity =
        ⟨clock, queue, source.offers instants n⟩ ∧
      (Run.mk clock queue (source.offers instants n)).settleLog source capacity = [] := by
  have stuck : (Run.mk clock queue (source.offers instants n)).step? source capacity = none :=
    if_neg (Nat.not_lt.mpr full)
  exact ⟨settle_of_stuck stuck, settleLog_of_stuck stuck⟩

/-- A stream with room takes the tick from the ticker. -/
theorem settle_room (room : queue.length < capacity) :
    let handedOver := Run.mk clock (queue ++ [source.tickNo instants n])
      (source.handsOver instants n)
    (Run.mk clock queue (source.offers instants n)).settle source capacity =
        handedOver.settle source capacity ∧
      (Run.mk clock queue (source.offers instants n)).settleLog source capacity =
        handedOver.settleLog source capacity := by
  intro handedOver
  have step : (Run.mk clock queue (source.offers instants n)).step? source capacity =
      some handedOver := if_pos room
  exact ⟨settle_of_step step, settleLog_of_step step⟩

variable {source instants clock n} (capacity)

/-- After a handover the ticker goes on to the next tick, if the run does not end. -/
theorem settle_handsOver_goes_on (goesOn : source.ending? instants n = none)
    (instant : instants (n + 1) = max (instants n + source.period) clock) :
    let handedOver := Run.mk clock queue (source.handsOver instants n)
    let next := Run.mk (instants (n + 1)) queue (source.offers instants (n + 1))
    handedOver.settle source capacity = next.settle source capacity ∧
      handedOver.settleLog source capacity =
        ⟨source.tickNo instants (n + 1), instants (n + 1)⟩ :: next.settleLog source capacity := by
  intro handedOver next
  unfold TickSource.ending? at goesOn
  split at goesOn
  · cases goesOn
  · rename_i notDone
    split at goesOn
    · cases goesOn
    · rename_i inRange
      split at goesOn
      · cases goesOn
      · rename_i onClock
        rw [TickSource.workersBefore_succ] at inRange
        have phase : handedOver.phase =
            .waiting (instants n + source.period) (source.workersBefore instants (n + 1)) := by
          simp only [handedOver, TickSource.handsOver, Phase.afterHandover]
          rw [if_neg notDone, if_neg inRange, TickSource.workersBefore_succ]
        have step : handedOver.step? source capacity = some next := by
          rw [step?, phase]
          simp only [handedOver, ← instant]
          rw [if_neg onClock, ← TickSource.tickNo_succ]
          rfl
        refine ⟨settle_of_step step, ?_⟩
        rw [settleLog_of_step step, production?, phase]
        rfl

/-- After the handover of a tick with which the run ends the ticker rests. -/
theorem settle_handsOver_ends {outcome : Except TickerFault Unit}
    (ending : source.ending? instants n = some outcome)
    (instant : instants (n + 1) = max (instants n + source.period) clock) :
    let handedOver := Run.mk clock queue (source.handsOver instants n)
    handedOver.settle source capacity = ⟨clock, queue, .ended outcome⟩ ∧
      handedOver.settleLog source capacity = [] := by
  intro handedOver
  unfold TickSource.ending? at ending
  split at ending
  · rename_i done
    cases ending
    have finished : handedOver = ⟨clock, queue, .ended (.ok ())⟩ := by
      simp only [handedOver, TickSource.handsOver, Phase.afterHandover, if_pos done]
    rw [finished]
    exact settle_ended _ _ _ _ _
  · rename_i notDone
    rw [TickSource.workersBefore_succ] at ending
    split at ending
    · rename_i tooMany
      cases ending
      have finished : handedOver = ⟨clock, queue, .ended (.error .countOverflow)⟩ := by
        simp only [handedOver, TickSource.handsOver, Phase.afterHandover, if_neg notDone,
          if_pos tooMany]
      rw [finished]
      exact settle_ended _ _ _ _ _
    · rename_i inRange
      split at ending
      · rename_i beyond
        cases ending
        have waits : handedOver = ⟨clock, queue, .waiting (instants n + source.period)
            (source.workersBefore instants (n + 1))⟩ := by
          simp only [handedOver, TickSource.handsOver, Phase.afterHandover, if_neg notDone,
            if_neg inRange, TickSource.workersBefore_succ]
        have step : handedOver.step? source capacity =
            some ⟨clock, queue, .ended (.error .clockOverflow)⟩ := by
          rw [waits, step?]
          simp only [← instant]
          rw [if_pos beyond]
        obtain ⟨settled, log⟩ := settle_ended source capacity clock queue (.error .clockOverflow)
        refine ⟨(settle_of_step step).trans settled, ?_⟩
        rw [settleLog_of_step step, log, waits]
        rfl
      · cases ending

variable {capacity queue}

/-! ## The settled runs of a consumer -/

/-- The run is settled after `i` ticks were taken: the stream holds the ticks that
follow, and one more is offered unless the run is over. -/
structure Settled (source : TickSource) (instants : Nat → Nat) (capacity i : Nat) (r : Run) :
    Prop where
  queue : r.queue = source.ticksFrom instants i (source.reached instants (i + capacity))
  offering : source.Reaches instants (i + capacity) →
    r.clock = instants (i + capacity) ∧
      r.phase = source.offers instants (i + capacity)
  ended : ¬ source.Reaches instants (i + capacity) →
    ∃ last outcome, source.reached instants (i + capacity) = last + 1 ∧
      source.ending? instants last = some outcome ∧ r.phase = .ended outcome

/-- What the ticker does with tick `n` once it is handed over: the run settles with
tick `n + 1` on offer, or it is over. -/
theorem settled_of_handsOver {i : Nat} (place : i + capacity = n + 1)
    (reaches : source.Reaches instants n)
    (holds : queue = source.ticksFrom instants i (n + 1))
    (instant : instants (n + 1) = max (instants n + source.period) clock) :
    let handedOver := Run.mk clock queue (source.handsOver instants n)
    Settled source instants capacity i (handedOver.settle source capacity) ∧
      handedOver.settleLog source capacity =
        source.productionsFrom instants (n + 1) (source.reached instants (n + 2)) := by
  intro handedOver
  have count : source.reached instants (n + 1) = n + 1 :=
    TickSource.reached_succ_of_reaches reaches
  cases ending : source.ending? instants n with
  | none =>
      have next := TickSource.reaches_succ_iff.mpr ⟨reaches, ending⟩
      have full : capacity ≤ queue.length := by
        rw [holds, TickSource.length_ticksFrom]
        omega
      obtain ⟨settled, log⟩ := settle_handsOver_goes_on capacity queue ending instant
      obtain ⟨stays, silent⟩ := settle_full source instants (instants (n + 1)) (n + 1) queue full
      constructor
      · rw [settled, stays]
        refine ⟨?_, ?_, ?_⟩
        · rw [place, count]
          exact holds
        · intro _
          rw [place]
          exact ⟨rfl, rfl⟩
        · intro stops
          rw [place] at stops
          exact absurd next stops
      · rw [log, silent, TickSource.reached_succ_of_reaches next,
          TickSource.productionsFrom_single]
  | some outcome =>
      have stops := TickSource.not_reaches_succ ending
      obtain ⟨settled, log⟩ := settle_handsOver_ends capacity queue ending instant
      constructor
      · rw [settled]
        refine ⟨?_, ?_, ?_⟩
        · rw [place, count]
          exact holds
        · intro reachesNext
          rw [place] at reachesNext
          exact absurd reachesNext stops
        · intro _
          exact ⟨n, outcome, by rw [place, count], ending, rfl⟩
      · rw [log, TickSource.reached_of_not_reaches stops (Nat.le_succ _), count,
          TickSource.productionsFrom_eq_nil (Nat.le_refl _)]

/-- From any tick that finds room on, a fresh run fills its stream. -/
theorem settled_of_filling (room : n ≤ capacity)
    (onTime : ∀ k < capacity, instants (k + 1) = instants k + source.period)
    (reaches : source.Reaches instants n) :
    let filling := Run.mk (instants n) (source.ticksFrom instants 0 n) (source.offers instants n)
    Settled source instants capacity 0 (filling.settle source capacity) ∧
      filling.settleLog source capacity =
        source.productionsFrom instants (n + 1) (source.reached instants (capacity + 1)) := by
  induction room using Nat.decreasingInduction with
  | self =>
      have full : capacity ≤ (source.ticksFrom instants 0 capacity).length :=
        Nat.le_of_eq (by rw [TickSource.length_ticksFrom, Nat.sub_zero])
      obtain ⟨stays, silent⟩ := settle_full source instants (instants capacity) capacity _ full
      constructor
      · rw [stays]
        refine ⟨?_, ?_, ?_⟩
        · rw [Nat.zero_add, TickSource.reached_of_reaches reaches]
        · intro _
          rw [Nat.zero_add]
          exact ⟨rfl, rfl⟩
        · intro stops
          rw [Nat.zero_add] at stops
          exact absurd reaches stops
      · rw [silent, TickSource.reached_succ_of_reaches reaches,
          TickSource.productionsFrom_eq_nil (Nat.le_refl _)]
  | of_succ n below ih =>
      have filled : (source.ticksFrom instants 0 n).length < capacity := by
        rw [TickSource.length_ticksFrom]
        omega
      obtain ⟨handed, log⟩ := settle_room source instants (instants n) n _ filled
      rw [← TickSource.ticksFrom_succ (Nat.zero_le n)] at handed log
      have instant : instants (n + 1) = max (instants n + source.period) (instants n) := by
        rw [onTime n below, Nat.max_eq_left (Nat.le_add_right _ _)]
      cases ending : source.ending? instants n with
      | none =>
          have next := TickSource.reaches_succ_iff.mpr ⟨reaches, ending⟩
          obtain ⟨goesOn, produced⟩ := settle_handsOver_goes_on capacity
            (source.ticksFrom instants 0 (n + 1)) ending instant
          obtain ⟨settled, rest⟩ := ih next
          constructor
          · rw [handed, goesOn]
            exact settled
          · have bound : n + 2 ≤ source.reached instants (capacity + 1) := by
              have here := TickSource.reached_succ_of_reaches next
              rw [← here]
              exact TickSource.reached_mono (by omega)
            rw [log, produced, rest, ← TickSource.productionsFrom_append (Nat.le_succ (n + 1))
              bound, TickSource.productionsFrom_single]
            rfl
      | some outcome =>
          have stops := TickSource.not_reaches_succ ending
          have count : source.reached instants capacity = n + 1 := by
            rw [TickSource.reached_of_not_reaches stops below]
            exact TickSource.reached_succ_of_reaches reaches
          obtain ⟨rests, silent⟩ := settle_handsOver_ends capacity
            (source.ticksFrom instants 0 (n + 1)) ending instant
          constructor
          · rw [handed, rests]
            refine ⟨?_, ?_, ?_⟩
            · rw [Nat.zero_add, count]
            · intro full
              rw [Nat.zero_add] at full
              exact absurd (full.of_le below) stops
            · intro _
              exact ⟨n, outcome, by rw [Nat.zero_add, count], ending, rfl⟩
          · rw [log, silent, TickSource.reached_of_not_reaches stops (by omega),
              TickSource.reached_succ_of_reaches reaches,
              TickSource.productionsFrom_eq_nil (Nat.le_refl _)]

/-- A settled run has tick `i` for its consumer, and settles again after it. -/
theorem Settled.take {i delay : Nat} {r : Run} (settled : Settled source instants capacity i r)
    (reaches : source.Reaches instants i)
    (instant : instants (i + capacity + 1) =
      instants (i + capacity) + max source.period delay) :
    ∃ taken, (r.delay delay).take? = some (source.tickNo instants i, taken) ∧
      Settled source instants capacity (i + 1) (taken.settle source capacity) ∧
      taken.settleLog source capacity =
        source.productionsFrom instants (source.reached instants (i + capacity + 1))
          (source.reached instants (i + 1 + capacity + 1)) := by
  have place : i + 1 + capacity = i + capacity + 1 := by omega
  have late : instants (i + capacity + 1) =
      max (instants (i + capacity) + source.period) (instants (i + capacity) + delay) := by
    rw [instant, Nat.add_max_add_left]
  by_cases full : source.Reaches instants (i + capacity)
  · obtain ⟨clock, phase⟩ := settled.offering full
    have queue := settled.queue
    rw [TickSource.reached_of_reaches full] at queue
    rw [TickSource.reached_succ_of_reaches full, place]
    cases capacity with
    | zero =>
        rw [TickSource.ticksFrom_eq_nil (Nat.le_of_eq (Nat.add_zero i))] at queue
        refine ⟨⟨r.clock + delay, [], source.handsOver instants i⟩, ?_, ?_⟩
        · simp [take?, Run.delay, queue, phase, TickSource.offers, TickSource.handsOver]
        · rw [clock]
          exact settled_of_handsOver rfl full
            (TickSource.ticksFrom_eq_nil (Nat.le_refl _)).symm late
    | succ capacity =>
        rw [TickSource.ticksFrom_cons (by omega)] at queue
        refine ⟨⟨r.clock + delay, source.ticksFrom instants (i + 1) (i + (capacity + 1)),
          r.phase⟩, ?_, ?_⟩
        · simp [take?, Run.delay, queue]
        · have room : (source.ticksFrom instants (i + 1) (i + (capacity + 1))).length <
              capacity + 1 := by
            rw [TickSource.length_ticksFrom]
            omega
          obtain ⟨handed, log⟩ := settle_room source instants (r.clock + delay)
            (i + (capacity + 1)) _ room
          rw [phase, handed, log, clock]
          exact settled_of_handsOver place full
            (TickSource.ticksFrom_succ (by omega)).symm late
  · obtain ⟨last, outcome, count, ending, phase⟩ := settled.ended full
    have further (m : Nat) (bound : i + capacity ≤ m) :
        source.reached instants m = last + 1 := by
      rw [TickSource.reached_of_not_reaches full bound, count]
    have here : i < last + 1 := by
      rw [← count]
      exact TickSource.lt_reached_of_reaches reaches (by
        rcases Nat.eq_zero_or_pos capacity with rfl | positive
        · exact absurd reaches full
        · omega)
    have queue := settled.queue
    rw [count, TickSource.ticksFrom_cons here] at queue
    have rests := settle_ended source capacity (r.clock + delay)
      (source.ticksFrom instants (i + 1) (last + 1)) outcome
    refine ⟨⟨r.clock + delay, source.ticksFrom instants (i + 1) (last + 1), .ended outcome⟩,
      ?_, ?_, ?_⟩
    · simp [take?, Run.delay, queue, phase]
    · rw [rests.1]
      refine ⟨?_, ?_, ?_⟩
      · rw [further _ (by omega)]
      · intro reachesNext
        exact absurd (reachesNext.of_le (by omega)) full
      · intro _
        exact ⟨last, outcome, further _ (by omega), ending, rfl⟩
    · rw [rests.2, further _ (by omega), further _ (by omega),
        TickSource.productionsFrom_eq_nil (Nat.le_refl _)]

/-- When all ticks are taken there is none left. -/
theorem Settled.take_none {i delay : Nat} {r : Run}
    (settled : Settled source instants capacity i r) (stops : ¬ source.Reaches instants i) :
    (r.delay delay).take? = none := by
  have finished : ¬ source.Reaches instants (i + capacity) :=
    fun reaches => stops (reaches.of_le (Nat.le_add_right _ _))
  obtain ⟨last, outcome, _, _, phase⟩ := settled.ended finished
  have queue := settled.queue
  rw [TickSource.reached_of_not_reaches stops (Nat.le_add_right _ _),
    TickSource.ticksFrom_eq_nil (TickSource.reached_le i)] at queue
  simp [take?, Run.delay, queue, phase]

end Run

end LoadShape.Workers
