import LoadShape.Proofs.Workers.FreshRun
import LoadShape.Proofs.Workers.RampSchedule

/-!
# Runs of a worker ramp

A run of a ramp ticker hands its consumer the ticks of the ramp's schedule, however the
consumer delays and whatever the stream holds: only the number of the last tick depends
on the instants at which ticks are produced.
-/

namespace LoadShape.Workers

open LoadShape.Time

/-- The ramp of a ticker; all workers at once are no ramp. -/
def Ticker.ramp? : Ticker → Option WorkerRamp
  | .constant _ => none
  | .step ticker => some ticker.ramp
  | .line ticker => some ticker.steps.ramp

theorem Ticker.source_of_ramp? {ticker : Ticker} {r : WorkerRamp} (ramp : ticker.ramp? = some r) :
    ticker.source = r.source := by
  cases ticker with
  | constant workers => cases ramp
  | step ticker =>
      cases ramp
      rfl
  | line ticker =>
      cases ramp
      rfl

namespace WorkerRamp

variable (r : WorkerRamp)

/-- Tick number `last` is the one with which the ramp ends. -/
def EndsFirstAt (instants : Nat → Nat) (last : Nat) : Prop :=
  IsLeast {n | 1 ≤ n ∧ r.EndsAt instants n} last

/-- Neither the number of workers nor the clock leaves its range before tick number
`bound`, as far as the ramp goes on. -/
def InRange (instants : Nat → Nat) (bound : Nat) : Prop :=
  ∀ n < bound, r.Lasts instants n →
    r.workersAfter n ≤ countMax ∧ instants (n + 1) + r.period.nanos < clockEnd

variable {r} {instants : Nat → Nat}

theorem exists_endsFirstAt_iff :
    (∃ last, r.EndsFirstAt instants last) ↔ ∃ n, 1 ≤ n ∧ r.EndsAt instants n := by
  classical
  constructor
  · rintro ⟨last, ends, _⟩
    exact ⟨last, ends⟩
  · intro ends
    refine ⟨Nat.find ends, Nat.find_spec ends, ?_⟩
    intro n candidate
    exact Nat.find_min' ends candidate

theorem EndsFirstAt.lasts {last n : Nat} (first : r.EndsFirstAt instants last) (below : n < last) :
    r.Lasts instants n := by
  intro k positive bound ends
  have least := first.2 ⟨positive, ends⟩
  omega

/-- What it takes for a run to go on after a step. -/
theorem ending?_eq_none_iff_of_lasts {n : Nat} (lasts : r.Lasts instants n) :
    r.source.ending? instants n = none ↔
      r.workersAfter n ≤ countMax ∧ instants (n + 1) + r.period.nanos < clockEnd := by
  obtain ⟨tick, workers⟩ := tickNo_of_lasts lasts
  rw [TickSource.ending?_eq_none_iff, tick, workers]
  exact and_iff_right (stepTick_done n)

/-- While a ramp in range goes on, so does its run. -/
theorem ending?_eq_none {bound n : Nat} (inRange : r.InRange instants bound) (below : n < bound)
    (lasts : r.Lasts instants n) : r.source.ending? instants n = none :=
  (ending?_eq_none_iff_of_lasts lasts).mpr (inRange n below lasts)

theorem reaches_of_lasts {bound n : Nat} (inRange : r.InRange instants bound) (below : n ≤ bound)
    (lasts : ∀ k < n, r.Lasts instants k) : r.source.Reaches instants n :=
  fun k earlier => ending?_eq_none inRange (Nat.lt_of_lt_of_le earlier below) (lasts k earlier)

/-- The run ends with the tick with which the ramp ends. -/
theorem ending?_of_endsFirstAt {last : Nat} (first : r.EndsFirstAt instants last) :
    r.source.ending? instants last = some (.ok ()) := by
  obtain ⟨positive, ends⟩ := first.1
  obtain ⟨n, rfl⟩ := Nat.exists_eq_succ_of_ne_zero (Nat.ne_of_gt positive)
  apply TickSource.ending?_of_done
  rw [Nat.succ_eq_add_one, tickNo_of_endsAt (first.lasts (Nat.lt_succ_self n)) ends]
  rfl

/-- Of the first ticks a run gets to those up to the last one of the ramp. -/
theorem reached_of_endsFirstAt {bound last m : Nat} (inRange : r.InRange instants bound)
    (first : r.EndsFirstAt instants last) (below : m ≤ bound + 1) :
    r.source.reached instants m = min (last + 1) m := by
  have stops := TickSource.not_reaches_succ (ending?_of_endsFirstAt first)
  rcases Nat.lt_or_ge last m with beyond | within
  · have reaches := reaches_of_lasts inRange (by omega) fun k earlier => first.lasts earlier
    rw [TickSource.reached_of_not_reaches stops beyond, Nat.min_eq_left beyond]
    exact TickSource.reached_succ_of_reaches reaches
  · rw [Nat.min_eq_right (Nat.le_succ_of_le within)]
    cases m with
    | zero => rfl
    | succ m =>
        exact TickSource.reached_succ_of_reaches (reaches_of_lasts inRange (by omega)
          fun k earlier => first.lasts (by omega))

theorem lasts_of_never (never : ∀ n, 1 ≤ n → ¬ r.EndsAt instants n) (n : Nat) :
    r.Lasts instants n :=
  fun k positive _ => never k positive

/-- A ramp that never ends is never through. -/
theorem reached_of_never {bound m : Nat} (inRange : r.InRange instants bound)
    (never : ∀ n, 1 ≤ n → ¬ r.EndsAt instants n) (below : m ≤ bound + 1) :
    r.source.reached instants m = m := by
  cases m with
  | zero => rfl
  | succ m =>
      exact TickSource.reached_succ_of_reaches (reaches_of_lasts inRange (by omega)
        fun k _ => lasts_of_never never k)

/-- The ticks of a ramp that ends are the scheduled ones. -/
theorem tickNo_eq_scheduledTick {last n : Nat} (first : r.EndsFirstAt instants last)
    (bound : n ≤ last) : r.source.tickNo instants n = r.scheduledTick instants last n := by
  unfold scheduledTick
  rcases Nat.lt_or_eq_of_le bound with earlier | rfl
  · rw [if_pos earlier, (tickNo_of_lasts (first.lasts earlier)).1]
  · obtain ⟨positive, ends⟩ := first.1
    obtain ⟨k, rfl⟩ := Nat.exists_eq_succ_of_ne_zero (Nat.ne_of_gt positive)
    rw [if_neg (Nat.lt_irrefl _), Nat.succ_eq_add_one,
      tickNo_of_endsAt (first.lasts (Nat.lt_succ_self k)) ends]

/-- A run that gets to a tick which is not the last one gets to it by steps. -/
theorem lasts_of_reaches {n : Nat} (reaches : r.source.Reaches instants n)
    (goesOn : (r.source.tickNo instants n).done = false) : r.Lasts instants n := by
  induction n with
  | zero =>
      intro k positive bound
      omega
  | succ n ih =>
      obtain ⟨before, notEnded⟩ := TickSource.reaches_succ_iff.mp reaches
      have lasts := ih before (TickSource.not_done_of_goes_on notEnded)
      apply lasts.succ
      intro ends
      rw [tickNo_of_endsAt lasts ends] at goesOn
      cases goesOn

/-- The last tick that a run gets to is the one with which the ramp ends. -/
theorem endsFirstAt_of_done {n : Nat} (reaches : r.source.Reaches instants n)
    (done : (r.source.tickNo instants n).done = true) : r.EndsFirstAt instants n := by
  cases n with
  | zero => cases done
  | succ n =>
      obtain ⟨before, notEnded⟩ := TickSource.reaches_succ_iff.mp reaches
      have lasts := lasts_of_reaches before (TickSource.not_done_of_goes_on notEnded)
      refine ⟨⟨Nat.succ_pos n, ?_⟩, ?_⟩
      · by_contra further
        rw [(tickNo_of_lasts (lasts.succ further)).1, stepTick_done] at done
        cases done
      · rintro k ⟨positive, ends⟩
        by_contra earlier
        exact lasts k positive (by omega) ends

end WorkerRamp

namespace TickSource

variable {source : TickSource} {instants : Nat → Nat}

/-- The ticks below number `j`, given by any rule for them. -/
theorem ticksFrom_zero_eq {j : Nat} {rule : Nat → Tick}
    (same : ∀ n < j, source.tickNo instants n = rule n) :
    source.ticksFrom instants 0 j = (List.range j).map rule := by
  rw [ticksFrom, Nat.sub_zero, ← List.range_eq_range']
  exact List.map_congr_left fun n member => same n (List.mem_range.mp member)

theorem productionsFrom_zero_eq {j : Nat} {rule : Nat → Tick}
    (same : ∀ n < j, source.tickNo instants n = rule n) :
    source.productionsFrom instants 0 j =
      (List.range j).map fun n => ⟨rule n, instants n⟩ := by
  rw [productionsFrom, Nat.sub_zero, ← List.range_eq_range']
  apply List.map_congr_left
  intro n member
  rw [same n (List.mem_range.mp member)]

end TickSource

namespace Ticker

open WorkerRamp

variable {ticker : Ticker} {r : WorkerRamp} {consumer : Consumer} {capacity : Nat}

/-- A ramp that ends hands over its schedule up to the last tick, as far as the consumer
takes ticks and the stream has room; one more tick is produced. -/
theorem run_of_endsFirstAt (ramp : ticker.ramp? = some r)
    (inRange : r.InRange (consumer.instants r.period.nanos capacity) (consumer.limit + capacity))
    {last : Nat} (first : r.EndsFirstAt (consumer.instants r.period.nanos capacity) last) :
    let instants := consumer.instants r.period.nanos capacity
    let result := ticker.run consumer { capacity }
    let taken := min (last + 1) consumer.limit
    result.1.events.length = taken ∧
      result.1.handedOver result.2 =
        (List.range (min (last + 1) (taken + capacity))).map (r.scheduledTick instants last) ∧
      ticker.productions consumer { capacity } =
        (List.range (min (last + 1) (taken + capacity + 1))).map
          (fun n => ⟨r.scheduledTick instants last n, instants n⟩) ∧
      (result.1.state = .over (.ok ()) ∨ result.1.state = .running) := by
  intro instants result taken
  obtain ⟨events, handed, produced, running, finished⟩ := ticker.run_fresh consumer capacity
  have count := congrArg List.length events
  rw [TickSource.length_eventsFrom, Nat.sub_zero] at count
  have period : r.source.period = r.period.nanos := rfl
  simp only [source_of_ramp? ramp, period] at count handed produced running finished
  have limit : r.source.reached (consumer.instants r.period.nanos capacity) consumer.limit =
      taken := reached_of_endsFirstAt inRange first (by omega)
  rw [limit] at count handed produced running finished
  have bound : taken ≤ consumer.limit := Nat.min_le_right _ _
  rw [reached_of_endsFirstAt inRange first (by omega)] at handed produced
  refine ⟨count, ?_, ?_, ?_⟩
  · rw [handed]
    apply TickSource.ticksFrom_zero_eq
    intro n below
    exact tickNo_eq_scheduledTick first (by omega)
  · rw [produced]
    apply TickSource.productionsFrom_zero_eq
    intro n below
    exact tickNo_eq_scheduledTick first (by omega)
  · by_cases full : r.source.Reaches (consumer.instants r.period.nanos capacity)
        (taken + capacity)
    · exact Or.inr (running full)
    · obtain ⟨final, outcome, size, ending, state⟩ := finished full
      have same : final = last := by
        rw [reached_of_endsFirstAt inRange first (by omega)] at size
        have stops := TickSource.not_reaches_succ ending
        rcases Nat.lt_or_ge final last with earlier | later
        · exact absurd (reaches_of_lasts inRange (by omega)
            fun k before => first.lasts (by omega)) stops
        · omega
      rw [same, ending?_of_endsFirstAt first] at ending
      cases ending
      exact Or.inl state

/-- A ramp that never ends hands over one step after another. -/
theorem run_of_never (ramp : ticker.ramp? = some r)
    (inRange : r.InRange (consumer.instants r.period.nanos capacity) (consumer.limit + capacity))
    (never : ∀ n, 1 ≤ n → ¬ r.EndsAt (consumer.instants r.period.nanos capacity) n) :
    let instants := consumer.instants r.period.nanos capacity
    let result := ticker.run consumer { capacity }
    result.1.events.length = consumer.limit ∧
      result.1.handedOver result.2 =
        (List.range (consumer.limit + capacity)).map r.stepTick ∧
      ticker.productions consumer { capacity } =
        (List.range (consumer.limit + capacity + 1)).map
          (fun n => ⟨r.stepTick n, instants n⟩) ∧
      result.1.state = .running := by
  intro instants result
  obtain ⟨events, handed, produced, running, _⟩ := ticker.run_fresh consumer capacity
  have count := congrArg List.length events
  rw [TickSource.length_eventsFrom, Nat.sub_zero] at count
  have period : r.source.period = r.period.nanos := rfl
  simp only [source_of_ramp? ramp, period] at count handed produced running
  have limit : r.source.reached (consumer.instants r.period.nanos capacity) consumer.limit =
      consumer.limit := reached_of_never inRange never (by omega)
  rw [limit] at count handed produced running
  rw [reached_of_never inRange never (by omega)] at handed produced
  have rule (n : Nat) : r.source.tickNo instants n = r.stepTick n :=
    (tickNo_of_lasts (lasts_of_never never n)).1
  refine ⟨count, ?_, ?_, ?_⟩
  · rw [handed]
    exact TickSource.ticksFrom_zero_eq fun n _ => rule n
  · rw [produced]
    exact TickSource.productionsFrom_zero_eq fun n _ => rule n
  · exact running (reaches_of_lasts inRange (Nat.le_refl _) fun k _ => lasts_of_never never k)

/-- A run of a ramp ticker follows the ramp, for every consumer and every capacity of a
fresh stream, as long as the numbers stay in their ranges.  If the ramp ends, it hands
over the steps before its last tick, that tick, and nothing more; if not, one step after
another.  The run succeeds exactly if the last tick was handed over.  A ramp ends exactly
if it falls or has a target or a budget, and the last tick for a consumer that never
delays is found by division. -/
theorem run_follows_ramp (ticker : Ticker) (ramp : ticker.ramp? = some r) (consumer : Consumer)
    (capacity : Nat)
    (inRange : r.InRange (consumer.instants r.period.nanos capacity)
      (consumer.limit + capacity)) :
    let instants := consumer.instants r.period.nanos capacity
    let result := ticker.run consumer { capacity }
    let handedOver := result.1.handedOver result.2
    let produced := ticker.productions consumer { capacity }
    (∀ last, r.EndsFirstAt instants last →
      let taken := min (last + 1) consumer.limit
      result.1.events.length = taken ∧
        handedOver =
          (List.range (min (last + 1) (taken + capacity))).map (r.scheduledTick instants last) ∧
        produced = (List.range (min (last + 1) (taken + capacity + 1))).map
          (fun n => ⟨r.scheduledTick instants last n, instants n⟩) ∧
        (result.1.state = .over (.ok ()) ∨ result.1.state = .running)) ∧
      ((∀ n, 1 ≤ n → ¬ r.EndsAt instants n) →
        result.1.events.length = consumer.limit ∧
        handedOver = (List.range (consumer.limit + capacity)).map r.stepTick ∧
        produced = (List.range (consumer.limit + capacity + 1)).map
          (fun n => ⟨r.stepTick n, instants n⟩) ∧
        result.1.state = .running) ∧
      (result.1.state = .over (.ok ()) ↔ ∃ tick ∈ handedOver, tick.done = true) ∧
      ((∃ last, r.EndsFirstAt instants last) ↔
        r.step.toInt < 0 ∨ 0 < r.target ∨ r.budget?.isSome = true) ∧
      (capacity = 0 → (∀ delay ∈ consumer.delays, delay = 0) →
        (∀ n, instants n = n * r.period.nanos) ∧
        ∀ last, r.punctualLast? = some last ↔ r.EndsFirstAt instants last) := by
  intro instants result handedOver produced
  refine ⟨?_, ?_, ?_, ?_, ?_⟩
  · intro last first
    exact run_of_endsFirstAt ramp inRange first
  · intro never
    exact run_of_never ramp inRange never
  · exact ticker.run_ok_iff consumer capacity
  · rw [exists_endsFirstAt_iff]
    exact exists_endsAt_iff fun n => mul_period_le_producedAt _ _ _ n
  · rintro rfl punctual
    have onTime (n : Nat) : instants n = n * r.period.nanos :=
      producedAt_punctual punctual r.period.nanos n
    refine ⟨onTime, fun last => ?_⟩
    have same : instants = fun n => n * r.period.nanos := funext onTime
    rw [same]
    exact punctualLast?_eq_some_iff last

/-- Five workers, two more every two seconds, towards fifteen within five seconds, on a
stream for one tick, and a consumer that takes the first tick three seconds late: the
delay spends the budget one tick early. -/
theorem run_follows_ramp_to_fifteen :
    let r : WorkerRamp :=
      { start := 5, step := 2, period := .ofSeconds 2, target := 15
        budget? := some (.ofSeconds 5), step_ne_zero := by decide, period_ne_zero := by decide }
    let consumer : Consumer := { delays := [3000000000] }
    let instants := consumer.instants r.period.nanos 1
    r.InRange instants 21 ∧ r.EndsFirstAt instants 2 ∧
      (Ticker.step ⟨r⟩).productions consumer { capacity := 1 } =
        [⟨⟨5, false⟩, 0⟩, ⟨⟨2, false⟩, 2000000000⟩, ⟨⟨8, true⟩, 5000000000⟩] := by
  intro r consumer instants
  have inRange : r.InRange instants 21 := by
    have all : ∀ n < 21, r.workersAfter n ≤ countMax ∧
        instants (n + 1) + r.period.nanos < clockEnd := by
      decide
    exact fun n below _ => all n below
  have first : r.EndsFirstAt instants 2 := by
    refine ⟨⟨by decide, Or.inl ⟨_, rfl, by decide⟩⟩, ?_⟩
    rintro n ⟨positive, ends⟩
    by_contra early
    obtain rfl : n = 1 := by omega
    rcases ends with ⟨budget, given, spent⟩ | ⟨none, _⟩ | ⟨down, _⟩
    · cases given
      exact absurd spent (by decide)
    · cases none
    · exact absurd down (by decide)
  obtain ⟨ending, _⟩ := run_follows_ramp (.step ⟨r⟩) rfl consumer 1 inRange
  exact ⟨inRange, first, (ending 2 first).2.2.1.trans (by decide)⟩

end Ticker

end LoadShape.Workers
