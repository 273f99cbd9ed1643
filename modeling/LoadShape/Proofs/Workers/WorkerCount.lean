import LoadShape.Proofs.Workers.RampRun

/-!
# Where the number of workers goes

The ticks of a ramp add up to a number of workers that is never negative and moves in the
direction of the ramp only, the correction at its end included.  It ends at the target,
less than a step beyond it, or where the budget leaves it.
-/

namespace LoadShape.Workers

open LoadShape.Time

namespace WorkerRamp

variable {r : WorkerRamp} {instants : Nat → Nat}

/-! ## One tick -/

theorem correction_of_no_target (nowhere : r.target = 0) (workers : Int) :
    r.correction workers = 0 := by
  simp [correction, shortOf, nowhere]

/-- The correction of a rising ramp leads up to the target, unless it is passed. -/
theorem add_correction_of_rising (up : 0 < r.step.toInt) (target : 0 < r.target)
    (workers : Int) : workers + r.correction workers = max (r.target.toNat : Int) workers := by
  have shortOf_iff : r.shortOf workers = true ↔ workers ≤ r.target.toNat := by
    simp [shortOf, rising_iff.mpr up, target]
  unfold correction
  split
  · rename_i short
    have below := shortOf_iff.mp short
    omega
  · rename_i beyond
    have above := shortOf_iff.not.mp beyond
    omega

/-- The correction of a falling ramp leads down to the target, unless it is passed. -/
theorem add_correction_of_falling (down : r.step.toInt < 0) (target : 0 < r.target)
    (workers : Int) : workers + r.correction workers = min (r.target.toNat : Int) workers := by
  have shortOf_iff : r.shortOf workers = true ↔ r.target.toNat ≤ workers := by
    simp [shortOf, rising_eq_false_iff.mpr down, target]
  unfold correction
  split
  · rename_i short
    have above := shortOf_iff.mp short
    omega
  · rename_i beyond
    have below := shortOf_iff.not.mp beyond
    omega

/-- What a tick changes: by the correction, not at all, or by a step that is cut short where
no workers are left. -/
theorem delta_tickAt_cases (workers : Int) (elapsed : Nat) :
    (r.tickAt workers elapsed).delta = r.correction workers ∨
      (r.tickAt workers elapsed).delta = 0 ∨
      (r.tickAt workers elapsed).delta = max r.step.toInt (-workers) := by
  have step : (r.stepFrom workers).delta = 0 ∨
      (r.stepFrom workers).delta = max r.step.toInt (-workers) := by
    unfold stepFrom
    split
    · exact Or.inl rfl
    · exact Or.inr rfl
  unfold tickAt
  split
  · split
    · exact Or.inl rfl
    · exact Or.inr step
  · split
    · exact Or.inr (Or.inl rfl)
    · exact Or.inr step

theorem delta_nonneg_of_rising (up : 0 < r.step.toInt) (workers : Int) (elapsed : Nat) :
    0 ≤ (r.tickAt workers elapsed).delta := by
  have corrected : 0 ≤ r.correction workers := by
    by_cases target : 0 < r.target
    · have reached := add_correction_of_rising up target workers
      omega
    · rw [correction_of_no_target (by simpa using target)]
  rcases r.delta_tickAt_cases workers elapsed with change | change | change <;> omega

theorem delta_nonpos_of_falling (down : r.step.toInt < 0) {workers : Int}
    (staffed : 0 ≤ workers) (elapsed : Nat) : (r.tickAt workers elapsed).delta ≤ 0 := by
  have corrected : r.correction workers ≤ 0 := by
    by_cases target : 0 < r.target
    · have reached := add_correction_of_falling down target workers
      omega
    · rw [correction_of_no_target (by simpa using target)]
  rcases r.delta_tickAt_cases workers elapsed with change | change | change <;> omega

/-- No tick removes more workers than there are. -/
theorem add_delta_nonneg {workers : Int} (staffed : 0 ≤ workers) (elapsed : Nat) :
    0 ≤ workers + (r.tickAt workers elapsed).delta := by
  have corrected : 0 ≤ workers + r.correction workers := by
    unfold correction
    split <;> omega
  rcases r.delta_tickAt_cases workers elapsed with change | change | change <;> omega

/-! ## All ticks -/

theorem workersBefore_nonneg (n : Nat) : 0 ≤ r.source.workersBefore instants n := by
  induction n with
  | zero => exact Int.le_refl 0
  | succ n ih =>
      rw [TickSource.workersBefore_succ]
      cases n with
      | zero => exact Int.add_nonneg ih (Int.natCast_nonneg _)
      | succ n =>
          rw [TickSource.tickNo_succ]
          exact add_delta_nonneg ih _

theorem workersBefore_le_succ (up : 0 < r.step.toInt) (n : Nat) :
    r.source.workersBefore instants n ≤ r.source.workersBefore instants (n + 1) := by
  rw [TickSource.workersBefore_succ]
  apply Int.le_add_of_nonneg_right
  cases n with
  | zero => exact Int.natCast_nonneg _
  | succ n =>
      rw [TickSource.tickNo_succ]
      exact delta_nonneg_of_rising up _ _

theorem workersBefore_succ_le (down : r.step.toInt < 0) {n : Nat} (positive : 1 ≤ n) :
    r.source.workersBefore instants (n + 1) ≤ r.source.workersBefore instants n := by
  obtain ⟨n, rfl⟩ := Nat.exists_eq_succ_of_ne_zero (Nat.ne_of_gt positive)
  rw [TickSource.workersBefore_succ (n := n.succ), Nat.succ_eq_add_one, TickSource.tickNo_succ]
  have staffed : 0 ≤ r.source.workersBefore instants (n + 1) := r.workersBefore_nonneg (n + 1)
  have change := delta_nonpos_of_falling down staffed (instants (n + 1))
  exact Int.add_le_of_le_sub_left (by rwa [Int.sub_self])

/-! ## The last tick -/

/-- The workers before the last tick of a ramp, and after it. -/
theorem workersBefore_of_endsFirstAt {k : Nat} (first : r.EndsFirstAt instants (k + 1)) :
    r.source.workersBefore instants (k + 1) = r.workersAfter k ∧
      r.source.workersBefore instants (k + 2) =
        r.workersAfter k + (r.lastTick instants (k + 1)).delta := by
  have lasts := first.lasts (Nat.lt_succ_self k)
  have before := (tickNo_of_lasts lasts).2
  refine ⟨before, ?_⟩
  rw [TickSource.workersBefore_succ, before, tickNo_of_endsAt lasts first.1.2]

/-- With a budget and a target a ramp ends at the farther of the target and the workers that
it has come to. -/
theorem add_lastTick_of_budget {k : Nat} {budget : Span} (given : r.budget? = some budget)
    (target : 0 < r.target) (first : r.EndsFirstAt instants (k + 1)) :
    r.workersAfter k + (r.lastTick instants (k + 1)).delta =
      if r.rising then max (r.target.toNat : Int) (r.workersAfter k)
      else min (r.target.toNat : Int) (r.workersAfter k) := by
  simp only [lastTick, given, Nat.add_sub_cancel]
  split
  · split
    · rename_i up
      exact add_correction_of_rising (rising_iff.mp up) target _
    · rename_i down
      exact add_correction_of_falling (rising_eq_false_iff.mp (by simpa using down)) target _
  · rename_i early
    -- within its budget only a ramp without workers ends, and it is past every target
    rcases first.1.2 with ⟨other, same, spent⟩ | ⟨none, _⟩ | ⟨down, empty⟩
    · rw [given] at same
      cases same
      exact absurd spent early
    · rw [given] at none
      cases none
    · rw [Nat.add_sub_cancel] at empty
      rw [if_neg (by simp [rising_eq_false_iff.mpr down]), empty]
      omega

theorem delta_lastTick_of_no_target (nowhere : r.target = 0) (n : Nat) :
    (r.lastTick instants n).delta = 0 := by
  unfold lastTick
  dsimp only
  split
  · split
    · exact correction_of_no_target nowhere _
    · rfl
  · rfl

theorem delta_lastTick_of_no_budget (unlimited : r.budget? = none) (n : Nat) :
    (r.lastTick instants n).delta = 0 := by
  simp [lastTick, unlimited]

/-! ## Where a ramp without a budget ends -/

/-- Without a budget a ramp with a target ends where it has arrived. -/
theorem arrived_of_endsFirstAt {k : Nat} (unlimited : r.budget? = none) (target : 0 < r.target)
    (first : r.EndsFirstAt instants (k + 1)) : r.Arrived (r.workersAfter k) := by
  rcases first.1.2 with ⟨budget, given, _⟩ | ⟨_, arrived⟩ | ⟨down, empty⟩
  · rw [unlimited] at given
    cases given
  · exact arrived
  · rw [Nat.add_sub_cancel] at empty
    rw [empty]
    refine ⟨target, fun up => ?_, fun _ => Int.natCast_nonneg _⟩
    omega

/-- Without a budget a ramp ends as soon as it has arrived. -/
theorem not_arrived_of_endsFirstAt {j k : Nat} (unlimited : r.budget? = none)
    (first : r.EndsFirstAt instants (k + 1)) (below : j < k) :
    ¬ r.Arrived (r.workersAfter j) := by
  intro arrived
  have ends : r.EndsAt instants (j + 1) := Or.inr (Or.inl ⟨unlimited, arrived⟩)
  exact first.lasts (Nat.lt_succ_self k) (j + 1) (Nat.succ_pos j) below ends

/-- Without a budget a ramp with a target ends with the workers that it starts with, or
one step after it was still short of the target. -/
theorem workersAfter_of_endsFirstAt {k : Nat} (unlimited : r.budget? = none)
    (first : r.EndsFirstAt instants (k + 1)) :
    r.workersAfter k = r.start.toNat ∨
      ¬ r.Arrived r.start.toNat ∧ ∃ short, ¬ r.Arrived short ∧
        r.workersAfter k = short + max r.step.toInt (-short) := by
  cases k with
  | zero => exact Or.inl workersAfter_zero
  | succ k =>
      have begins := not_arrived_of_endsFirstAt unlimited first (Nat.succ_pos k)
      rw [workersAfter_zero] at begins
      exact Or.inr ⟨begins, r.workersAfter k,
        not_arrived_of_endsFirstAt unlimited first (Nat.lt_succ_self k),
        (workersAfter_succ k).symm⟩

/-- A ramp without a budget that begins at its target or past it stays there. -/
theorem workersAfter_of_arrived {k : Nat} (unlimited : r.budget? = none)
    (there : r.Arrived r.start.toNat) (first : r.EndsFirstAt instants (k + 1)) :
    r.workersAfter k = r.start.toNat := by
  rcases workersAfter_of_endsFirstAt unlimited first with still | ⟨begins, _⟩
  · exact still
  · exact absurd there begins

/-- A rising ramp without a budget passes its target by less than a step. -/
theorem workersAfter_of_rising {k : Nat} (unlimited : r.budget? = none)
    (up : 0 < r.step.toInt) (before : r.start.toNat < r.target.toNat)
    (first : r.EndsFirstAt instants (k + 1)) :
    (r.target.toNat : Int) ≤ r.workersAfter k ∧
      r.workersAfter k ≤ r.target.toNat + r.step.toInt - 1 := by
  have target : 0 < r.target := UInt32.lt_iff_toNat_lt.mpr (Nat.zero_lt_of_lt before)
  have arrived := (arrived_of_endsFirstAt unlimited target first).2.1 up
  refine ⟨arrived, ?_⟩
  rcases workersAfter_of_endsFirstAt unlimited first with still | ⟨_, short, notYet, step⟩
  · omega
  · have below : short < r.target.toNat := by
      by_contra beyond
      exact notYet ⟨target, fun _ => Int.not_lt.mp beyond, fun down => by omega⟩
    omega

/-- A falling ramp without a budget passes its target by less than a step, and by no more
workers than there are. -/
theorem workersAfter_of_falling {k : Nat} (unlimited : r.budget? = none)
    (down : r.step.toInt < 0) (target : 0 < r.target)
    (before : r.target.toNat < r.start.toNat) (first : r.EndsFirstAt instants (k + 1)) :
    max 0 ((r.target.toNat : Int) - r.step.toInt.natAbs + 1) ≤ r.workersAfter k ∧
      r.workersAfter k ≤ r.target.toNat := by
  have arrived := (arrived_of_endsFirstAt unlimited target first).2.2 down
  refine ⟨?_, arrived⟩
  rcases workersAfter_of_endsFirstAt unlimited first with still | ⟨_, short, notYet, step⟩
  · omega
  · have above : r.target.toNat < short := by
      by_contra beyond
      exact notYet ⟨target, fun up => by omega, fun _ => Int.not_lt.mp beyond⟩
    omega

/-- The last tick of a ramp changes the workers that it finds by `delta`, to where the ramp
is meant to end. -/
structure Arrival (r : WorkerRamp) (before delta : Int) : Prop where
  /-- Without a target the last tick changes nothing. -/
  untargeted : r.target = 0 → delta = 0
  /-- A rising ramp passes its target by less than a step. -/
  rises : r.budget? = none → 0 < r.step.toInt → r.start < r.target →
    (r.target.toNat : Int) ≤ before + delta ∧ before + delta ≤ r.target.toNat + r.step.toInt - 1
  /-- A falling ramp passes its target by less than a step, and stops without workers. -/
  falls : r.budget? = none → r.step.toInt < 0 → 0 < r.target → r.target < r.start →
    max 0 ((r.target.toNat : Int) - r.step.toInt.natAbs + 1) ≤ before + delta ∧
      before + delta ≤ r.target.toNat
  /-- A ramp that begins at its target or past it stays there. -/
  stays : r.budget? = none → r.Arrived r.start.toNat → before + delta = r.start.toNat
  /-- With a budget the last tick leads up to the target, unless it is passed. -/
  corrected_up : r.budget?.isSome → 0 < r.target → 0 < r.step.toInt →
    before + delta = max (r.target.toNat : Int) before
  /-- With a budget the last tick leads down to the target, unless it is passed. -/
  corrected_down : r.budget?.isSome → 0 < r.target → r.step.toInt < 0 →
    before + delta = min (r.target.toNat : Int) before

theorem arrival_of_endsFirstAt {k : Nat} (first : r.EndsFirstAt instants (k + 1)) :
    r.Arrival (r.workersAfter k) (r.lastTick instants (k + 1)).delta := by
  have unchanged (unlimited : r.budget? = none) :
      r.workersAfter k + (r.lastTick instants (k + 1)).delta = r.workersAfter k := by
    rw [delta_lastTick_of_no_budget unlimited, Int.add_zero]
  have corrected (given : r.budget?.isSome) (target : 0 < r.target) :
      r.workersAfter k + (r.lastTick instants (k + 1)).delta =
        if r.rising then max (r.target.toNat : Int) (r.workersAfter k)
        else min (r.target.toNat : Int) (r.workersAfter k) := by
    obtain ⟨budget, given⟩ := Option.isSome_iff_exists.mp given
    exact add_lastTick_of_budget given target first
  constructor
  case untargeted =>
    intro nowhere
    exact delta_lastTick_of_no_target nowhere _
  case rises =>
    intro unlimited up before
    rw [unchanged unlimited]
    exact workersAfter_of_rising unlimited up (UInt32.lt_iff_toNat_lt.mp before) first
  case falls =>
    intro unlimited down target before
    rw [unchanged unlimited]
    exact workersAfter_of_falling unlimited down target (UInt32.lt_iff_toNat_lt.mp before) first
  case stays =>
    intro unlimited there
    rw [unchanged unlimited]
    exact workersAfter_of_arrived unlimited there first
  case corrected_up =>
    intro given target up
    rw [corrected given target, if_pos (rising_iff.mpr up)]
  case corrected_down =>
    intro given target down
    rw [corrected given target, if_neg (by rw [rising_eq_false_iff.mpr down]; decide)]

/-! ## What a consumer counts -/

/-- Of a run that goes on the consumer counts every tick in full. -/
theorem countedBefore_eq {n : Nat} (reaches : r.source.Reaches instants n) :
    r.source.countedBefore instants n = r.source.workersBefore instants n := by
  induction n with
  | zero => rfl
  | succ n ih =>
      obtain ⟨before, goesOn⟩ := TickSource.reaches_succ_iff.mp reaches
      have counted := (TickSource.ending?_eq_none_iff.mp goesOn).2.1
      have staffed : 0 ≤ r.source.workersBefore instants (n + 1) := r.workersBefore_nonneg (n + 1)
      have least : countMin ≤ 0 := by decide
      rw [TickSource.countedBefore, ih before, countAfter, ← TickSource.workersBefore_succ]
      omega

/-- With the tick that it takes next a consumer counts as far as it can. -/
theorem countedBefore_succ {n : Nat} (reaches : r.source.Reaches instants n) :
    r.source.countedBefore instants (n + 1) =
      min countMax (r.source.workersBefore instants (n + 1)) := by
  have staffed : 0 ≤ r.source.workersBefore instants (n + 1) := r.workersBefore_nonneg (n + 1)
  have least : countMin ≤ 0 := by decide
  have most : 0 ≤ countMax := by decide
  rw [TickSource.countedBefore, countedBefore_eq reaches, countAfter,
    ← TickSource.workersBefore_succ]
  omega

end WorkerRamp

/-- The workers after the first `n` of some ticks. -/
def workersAfterTicks (ticks : List Tick) (n : Nat) : Int := ((ticks.take n).map (·.delta)).sum

theorem TickSource.workersAfterTicks_ticksFrom {source : TickSource} {instants : Nat → Nat}
    (n j : Nat) :
    workersAfterTicks (source.ticksFrom instants 0 j) n =
      source.workersBefore instants (min n j) := by
  rw [workersAfterTicks, take_ticksFrom, ← workersBefore_eq_sum]

/-- The last tick of a run, and the workers before and after it. -/
theorem WorkerRamp.arrival_of_done {r : WorkerRamp} {instants : Nat → Nat} {n : Nat}
    (reaches : r.source.Reaches instants n)
    (done : (r.source.tickNo instants n).done = true) :
    r.Arrival (r.source.workersBefore instants n) (r.source.tickNo instants n).delta := by
  have first := endsFirstAt_of_done reaches done
  obtain ⟨k, rfl⟩ := Nat.exists_eq_succ_of_ne_zero (Nat.ne_of_gt first.1.1)
  rw [Nat.succ_eq_add_one] at first ⊢
  rw [(workersBefore_of_endsFirstAt first).1,
    tickNo_of_endsAt (first.lasts (Nat.lt_succ_self k)) first.1.2]
  exact arrival_of_endsFirstAt first

/-- Where the number of workers goes in a run of a ramp ticker, for every consumer and every
capacity of a fresh stream.  It is never negative, a rising ramp never lowers it, and a falling
ramp never raises it after its first tick.  It is what the consumer counts of the ticks that it
takes, as far as that can be counted.  A run that succeeds has produced its last tick, and the last
tick takes the workers to where the ramp is meant to end. -/
theorem Ticker.workers_along_ramp {r : WorkerRamp} (ticker : Ticker)
    (ramp : ticker.ramp? = some r) (consumer : Consumer) (capacity : Nat) :
    let ticks := (ticker.productions consumer { capacity }).map (·.tick)
    let record := (ticker.run consumer { capacity }).1
    let workers := workersAfterTicks ticks
    (∀ n, 0 ≤ workers n) ∧
      (0 < r.step.toInt → ∀ n, workers n ≤ workers (n + 1)) ∧
      (r.step.toInt < 0 → ∀ n, 1 ≤ n → workers (n + 1) ≤ workers n) ∧
      (∀ i event, record.events[i]? = some event →
        ticks[i]? = some event.tick ∧ event.workers = min countMax (workers (i + 1))) ∧
      (record.state = .over (.ok ()) → ∃ tick, ticks.getLast? = some tick ∧ tick.done = true) ∧
      (∀ last tick, ticks[last]? = some tick → tick.done = true →
        ticks.length = last + 1 ∧ workers (last + 1) = workers last + tick.delta ∧
          r.Arrival (workers last) tick.delta) := by
  intro ticks record workers
  have source_eq := Ticker.source_of_ramp? ramp
  obtain ⟨instants, instants_eq⟩ : ∃ instants,
      consumer.instants r.source.period capacity = instants := ⟨_, rfl⟩
  have numbered := map_tick_productions source_eq instants_eq
  generalize size : (ticker.productions consumer { capacity }).length = j at numbered
  have counts (n : Nat) : workers n = r.source.workersBefore instants (min n j) := by
    rw [← TickSource.workersAfterTicks_ticksFrom, ← numbered]
  -- a prefix that is longer than the list of ticks is the whole list
  have moves (n : Nat) : workers n = r.source.workersBefore instants n ∧
      workers (n + 1) = r.source.workersBefore instants (n + 1) ∨
        workers (n + 1) = workers n := by
    rw [counts, counts]
    rcases Nat.lt_or_ge n j with below | beyond
    · left
      rw [Nat.min_eq_left below, Nat.min_eq_left (Nat.le_of_lt below)]
      exact ⟨rfl, rfl⟩
    · right
      rw [Nat.min_eq_right (Nat.le_succ_of_le beyond), Nat.min_eq_right beyond]
  have found {n : Nat} {tick : Tick} : ticks[n]? = some tick ↔
      n < j ∧ r.source.tickNo instants n = tick := by
    simp only [ticks, numbered, TickSource.ticksFrom]
    exact getElem?_numbered_eq_some
  refine ⟨?_, ?_, ?_, ?_, ?_, ?_⟩
  · intro n
    rw [counts]
    exact r.workersBefore_nonneg _
  · intro up n
    rcases moves n with ⟨before, after⟩ | still
    · rw [before, after]
      exact WorkerRamp.workersBefore_le_succ up n
    · exact Int.le_of_eq still.symm
  · intro down n positive
    rcases moves n with ⟨before, after⟩ | still
    · rw [before, after]
      exact WorkerRamp.workersBefore_succ_le down positive
    · exact Int.le_of_eq still
  · intro i event seen
    obtain ⟨below, rfl⟩ := (getElem?_events_eq_some source_eq instants_eq).mp seen
    have produced : i < j := by
      rw [length_events_eq_min source_eq instants_eq, size] at below
      exact Nat.lt_of_lt_of_le below (Nat.min_le_right _ _)
    have reaches := reaches_of_lt_length source_eq instants_eq (size ▸ produced)
    rw [counts, Nat.min_eq_left produced]
    exact ⟨found.mpr ⟨produced, rfl⟩, WorkerRamp.countedBefore_succ reaches⟩
  · intro succeeds
    obtain ⟨last, outcome, count, ending, state⟩ := ending_of_not_running source_eq instants_eq
      (fun running => by rw [succeeds] at running; cases running)
    rw [succeeds] at state
    cases state
    refine ⟨_, ?_, TickSource.done_of_ending?_ok ending⟩
    simp only [ticks, numbered]
    rw [← size, count, TickSource.ticksFrom_succ (Nat.zero_le last), List.getLast?_concat]
  · intro last tick there done
    obtain ⟨below, rfl⟩ := found.mp there
    have reaches := reaches_of_lt_length source_eq instants_eq (size ▸ below)
    have length := length_productions_of_done source_eq instants_eq (size ▸ below) done
    rw [counts, counts, Nat.min_eq_left below, Nat.min_eq_left (Nat.le_of_lt below)]
    exact ⟨(List.length_map _).trans length, r.source.workersBefore_succ instants last,
      WorkerRamp.arrival_of_done reaches done⟩

/-- Five workers, two more every two seconds, towards fifteen within five seconds, on a
stream for one tick: the budget is spent with seven workers, and the last tick adds the
eight that are missing. -/
theorem Ticker.workers_along_ramp_to_fifteen :
    let r : WorkerRamp :=
      { start := 5, step := 2, period := .ofSeconds 2, target := 15
        budget? := some (.ofSeconds 5), step_ne_zero := by decide, period_ne_zero := by decide }
    let consumer : Consumer := { delays := [3000000000] }
    let ticks := ((Ticker.step ⟨r⟩).productions consumer { capacity := 1 }).map (·.tick)
    ticks = [⟨5, false⟩, ⟨2, false⟩, ⟨8, true⟩] ∧ workersAfterTicks ticks 3 = 15 := by
  intro r consumer ticks
  have source_eq : (Ticker.step ⟨r⟩).source = r.source := rfl
  have length : ((Ticker.step ⟨r⟩).productions consumer { capacity := 1 }).length = 3 :=
    (length_productions source_eq rfl).trans (by decide)
  have produced : ticks = [⟨5, false⟩, ⟨2, false⟩, ⟨8, true⟩] := by
    refine (map_tick_productions source_eq rfl).trans ?_
    rw [length]
    decide
  obtain ⟨_, _, _, _, _, arrives⟩ := workers_along_ramp (.step ⟨r⟩) rfl consumer 1
  obtain ⟨_, final, arrival⟩ := arrives 2 ⟨8, true⟩ (congrArg (·[2]?) produced) rfl
  refine ⟨produced, final.trans ((arrival.corrected_up rfl (by decide) (by decide)).trans ?_)⟩
  change max 15 (workersAfterTicks ticks 2) = 15
  rw [produced]
  decide

end LoadShape.Workers
