import LoadShape.Proofs.Pacing.KeptPlan
import LoadShape.Proofs.Pacing.WholeSeconds

/-!
# The search for the crossing

A ramp that is given a rate to hold and no load duration searches the starts of its periods for
the first one at which it is past that rate.  In whole numbers it is past the rate as soon as its
steps exceed the distance to it, and the search goes just as far.  It finds the crossing unless
the period in which it lies starts beyond the 64-bit nanoseconds: there all starts of periods
coincide, and the ramp is not seen to be past the rate at any of them.
-/

namespace LoadShape.Pacing

open LoadShape.Number LoadShape.Time

/-! ## Searching -/

section Search

variable {property : Nat → Bool} {count i n : Nat}

theorem leastFrom?_eq_some_of_first (holds : property n = true) (le : i ≤ n)
    (inside : n < i + count) (first : ∀ m < n, property m = false) :
    leastFrom? property count i = some n := by
  induction count generalizing i with
  | zero => omega
  | succ count ih =>
      unfold leastFrom?
      rcases Nat.eq_or_lt_of_le le with rfl | later
      · rw [if_pos holds]
      · rw [first i later, if_neg Bool.false_ne_true]
        exact ih later (by omega)

theorem leastFrom?_eq_none (never : ∀ m < i + count, property m = false) :
    leastFrom? property count i = none := by
  induction count generalizing i with
  | zero => rfl
  | succ count ih =>
      have rest : leastFrom? property count (i + 1) = none :=
        ih fun m less => never m (by omega)
      unfold leastFrom?
      rw [never i (by omega), if_neg Bool.false_ne_true, rest]

end Search

/-! ## What steps change -/

namespace Ramp

/-- What `n` steps up change. -/
theorem change_of_rising {r : Ramp} (rising : r.rising = true) (n : Nat) :
    r.step.toInt * n = (n * r.step.toInt.natAbs : Nat) := by
  have up : (0 : Int) < r.step.toInt := by
    simpa [Ramp.rising, Int64.lt_iff_toInt_lt] using rising
  rw [Nat.cast_mul, Int.natAbs_of_nonneg up.le, mul_comm]

/-- What `n` steps down change. -/
theorem change_of_falling {r : Ramp} (falling : r.rising = false) (n : Nat) :
    r.step.toInt * n = -(n * r.step.toInt.natAbs : Nat) := by
  have down : r.step.toInt ≤ 0 := by
    simpa [Ramp.rising, Int64.lt_iff_toInt_lt] using falling
  rw [Nat.cast_mul, Int.ofNat_natAbs_of_nonpos down, mul_neg, neg_neg, mul_comm]

end Ramp

namespace Course

variable {c : Course} {n : Nat}

/-- A course with a rate to hold and no load duration; either rate and one step more take no more
than 53 bits. -/
structure ExactSearch (c : Course) : Prop where
  timeless : c.loadDuration? = none
  limited : c.hold.rate ≠ 0
  start_le : c.ramp.start.toNat + c.ramp.step.toInt.natAbs ≤ 2 ^ 53
  hold_le : c.hold.rate.toNat + c.ramp.step.toInt.natAbs ≤ 2 ^ 53

/-- The distance between the start rate and the rate to hold. -/
def distance (c : Course) : Nat := (c.hold.rate.toNat - c.ramp.start.toNat : Int).natAbs

/-- The ramp is not past the rate to hold from the start on. -/
def StartsBefore (c : Course) : Prop :=
  c.ramp.NotPast c.ramp.start.toNat c.hold.rate.toNat

instance (c : Course) : Decidable c.StartsBefore :=
  inferInstanceAs (Decidable (c.ramp.NotPast _ _))

theorem natAbs_step_pos (c : Course) : 0 < c.ramp.step.toInt.natAbs :=
  Int.natAbs_pos.mpr fun zero => c.ramp.step_ne_zero (Int64.toInt_inj.mp zero)

/-- The search goes up to the first number of steps that exceed the distance. -/
theorem lt_searchBound_iff (c : Course) (n : Nat) :
    n < c.searchBound ↔ n * c.ramp.step.toInt.natAbs ≤ c.distance := by
  rw [← Nat.le_div_iff_mul_le c.natAbs_step_pos]
  exact Nat.lt_succ_iff

/-- As far as the search goes, the steps exceed the distance by one at most. -/
theorem steps_le_of_le_searchBound (le : n ≤ c.searchBound) :
    n * c.ramp.step.toInt.natAbs ≤ c.distance + c.ramp.step.toInt.natAbs := by
  cases n with
  | zero => omega
  | succ n =>
      have before := (c.lt_searchBound_iff n).mp le
      rw [Nat.add_one_mul]
      exact Nat.add_le_add_right before _

/-- The directions of a ramp that starts before the rate to hold, and what `n` steps change in
either of them. -/
theorem StartsBefore.directions (starts : c.StartsBefore) (n : Nat) :
    (c.ramp.rising = true ∧ c.ramp.start.toNat ≤ c.hold.rate.toNat ∧
        c.ramp.step.toInt * n = (n * c.ramp.step.toInt.natAbs : Nat)) ∨
      (c.ramp.rising = false ∧ c.hold.rate.toNat ≤ c.ramp.start.toNat ∧
        c.ramp.step.toInt * n = -(n * c.ramp.step.toInt.natAbs : Nat)) := by
  cases direction : c.ramp.rising with
  | true =>
      have before := (Ramp.notPast_of_rising direction).mp starts
      exact .inl ⟨rfl, Nat.cast_le.mp before, Ramp.change_of_rising direction n⟩
  | false =>
      have before := (Ramp.notPast_of_falling direction).mp starts
      exact .inr ⟨rfl, Nat.cast_le.mp before, Ramp.change_of_falling direction n⟩

namespace ExactSearch

variable (exact : c.ExactSearch)
include exact

theorem start_exact : c.ramp.start.toNat ≤ 2 ^ 53 :=
  (Nat.le_add_right _ _).trans exact.start_le

theorem target_eq : c.target = c.hold.rate.toNat :=
  rounded_natCast ((Nat.le_add_right _ _).trans exact.hold_le)

/-- As far as the search goes, the rate of a ramp is not rounded. -/
theorem rateOfPeriods_eq (starts : c.StartsBefore) (le : n ≤ c.searchBound) :
    c.ramp.rateOfPeriods n = ((c.ramp.start.toNat + c.ramp.step.toInt * n).toNat : Nat) := by
  have steps_le := steps_le_of_le_searchBound le
  have start_le := exact.start_le
  have hold_le := exact.hold_le
  have periods_le : n ≤ n * c.ramp.step.toInt.natAbs := Nat.le_mul_of_pos_right n c.natAbs_step_pos
  rw [distance] at steps_le
  rcases starts.directions n with ⟨-, before, change⟩ | ⟨-, before, change⟩
  · exact Ramp.rateOfPeriods_eq exact.start_exact (by omega) (by omega)
  · exact Ramp.rateOfPeriods_eq exact.start_exact (by omega) (by omega)

/-- In 53 bits a ramp is past the rate to hold with the steps that exceed the distance to it. -/
theorem notPast_iff (starts : c.StartsBefore) (le : n ≤ c.searchBound) :
    c.ramp.NotPast (c.ramp.rateOfPeriods n) c.target ↔ n < c.searchBound := by
  rw [exact.rateOfPeriods_eq starts le, exact.target_eq, c.lt_searchBound_iff]
  have held : 0 < c.hold.rate.toNat := toNat_pos exact.limited
  rcases starts.directions n with ⟨direction, before, change⟩ | ⟨direction, before, change⟩
  · rw [Ramp.notPast_of_rising direction, Nat.cast_le, change, distance]
    omega
  · -- A falling rate stops at zero, which is below every rate to hold.
    rw [Ramp.notPast_of_falling direction, Nat.cast_le, change, distance]
    omega

/-- The ramp is seen to be past the rate to hold only at the last period of the search, and only
if that starts within the 64-bit nanoseconds. -/
theorem pastHold_iff (starts : c.StartsBefore) (le : n ≤ c.searchBound) :
    c.pastHold n = true ↔ n = c.searchBound ∧ c.searchBound * c.ramp.period.nanos ≤ wordMax := by
  have positive := Nat.pos_of_ne_zero c.ramp.period_ne_zero
  -- At the start of period `n` the rate is that of the last period which starts in the 64 bits.
  rw [Course.pastHold_iff, Ramp.rateAt_periodStart,
    exact.notPast_iff starts ((Nat.min_le_left _ _).trans le), not_lt, Nat.le_min,
    Nat.le_div_iff_mul_le positive]
  exact and_congr_left' ⟨fun ge => Nat.le_antisymm le ge, fun same => same.ge⟩

/-- The search finds the crossing at its last period. -/
theorem crossing?_of_fits (starts : c.StartsBefore)
    (fits : c.searchBound * c.ramp.period.nanos ≤ wordMax) :
    c.crossing? = some c.searchBound := by
  have past := (exact.pastHold_iff starts (Nat.le_refl _)).mpr ⟨rfl, fits⟩
  refine leastFrom?_eq_some_of_first past (Nat.zero_le _) (by omega) fun m less => ?_
  rw [← Bool.not_eq_true, exact.pastHold_iff starts less.le]
  exact fun found => less.ne found.1

/-- The search misses a crossing beyond the 64-bit nanoseconds. -/
theorem crossing?_of_late (starts : c.StartsBefore)
    (late : wordMax < c.searchBound * c.ramp.period.nanos) : c.crossing? = none := by
  refine leastFrom?_eq_none fun m less => ?_
  rw [← Bool.not_eq_true, exact.pastHold_iff starts (by omega)]
  exact fun found => Nat.not_le_of_lt late found.2

/-- The search ends at once if the ramp is past the rate to hold from the start on. -/
theorem crossing?_of_past (past : ¬ c.StartsBefore) : c.crossing? = some 0 := by
  have start_rate : c.ramp.rateOfPeriods 0 = c.ramp.start.toNat := by
    have small := exact.start_exact
    rw [Ramp.rateOfPeriods_eq small (Nat.zero_le _) (by omega)]
    simp
  refine leastFrom?_eq_some_of_first ?_ (Nat.le_refl _) (by omega) fun m less => absurd less ?_
  · rw [Course.pastHold_iff, Ramp.rateAt_periodStart, Nat.zero_min, start_rate, exact.target_eq]
    exact past
  · exact Nat.not_lt_zero m

end ExactSearch

/-! ## The constant phase -/

/-- Without a load duration the constant phase begins with the period of the crossing. -/
theorem plan_constantAt? (timeless : c.loadDuration? = none) (limited : c.hold.rate ≠ 0) :
    c.plan.constantAt? = c.crossing?.bind fun n => (periodStart c.ramp.period n).nonzero? := by
  change c.constantAt? = _
  unfold constantAt?
  rw [timeless]
  exact if_neg limited

theorem planWarnings_eq (timeless : c.loadDuration? = none) (limited : c.hold.rate ≠ 0) :
    c.planWarnings =
      if c.crossing? = none then [.neverCrosses c.ramp c.hold.rate c.searchBound] else [] := by
  unfold planWarnings
  simp only [timeless, limited, ne_eq, not_false_eq_true, true_and]

namespace ExactSearch

variable (exact : c.ExactSearch)
include exact

theorem phase_of_fits (starts : c.StartsBefore)
    (fits : c.searchBound * c.ramp.period.nanos ≤ wordMax) :
    (∃ phaseStart, c.plan.constantAt? = some phaseStart ∧
        phaseStart.nanos = c.searchBound * c.ramp.period.nanos) ∧ c.planWarnings = [] := by
  have found := exact.crossing?_of_fits starts fits
  have nanos : (periodStart c.ramp.period c.searchBound).nanos =
      c.searchBound * c.ramp.period.nanos := by
    rw [nanos_periodStart, Nat.mul_comm, Nat.min_eq_left fits]
  have later : (periodStart c.ramp.period c.searchBound).nanos ≠ 0 := by
    rw [nanos]
    exact Nat.mul_ne_zero (Nat.succ_ne_zero _) c.ramp.period_ne_zero
  constructor
  · refine ⟨_, ?_, nanos⟩
    rw [plan_constantAt? exact.timeless exact.limited, found]
    exact if_neg later
  · rw [planWarnings_eq exact.timeless exact.limited, found]
    rfl

theorem phase_of_late (starts : c.StartsBefore)
    (late : wordMax < c.searchBound * c.ramp.period.nanos) :
    c.plan.constantAt? = none ∧
      c.planWarnings = [.neverCrosses c.ramp c.hold.rate c.searchBound] := by
  have missed := exact.crossing?_of_late starts late
  constructor
  · rw [plan_constantAt? exact.timeless exact.limited, missed]
    rfl
  · rw [planWarnings_eq exact.timeless exact.limited, if_pos missed]

theorem phase_of_past (past : ¬ c.StartsBefore) :
    c.plan.constantAt? = none ∧ c.planWarnings = [] := by
  have found := exact.crossing?_of_past past
  constructor
  · rw [plan_constantAt? exact.timeless exact.limited, found]
    have at_once : (periodStart c.ramp.period 0).nanos = 0 := by
      rw [nanos_periodStart, Nat.mul_zero, Nat.zero_min]
    change (periodStart c.ramp.period 0).nonzero? = none
    rw [Span.nonzero?, if_pos at_once]
  · rw [planWarnings_eq exact.timeless exact.limited, found]
    rfl

end ExactSearch

end Course

/-! ## Pacers -/

namespace Pacer

/-- A ramp that has forgotten its plan works it out with the warnings of its course. -/
theorem warnings_plan?_forget {p : Pacer} {course : Course} {plan : Plan}
    (planned : p.planned? = some (course, plan)) :
    p.forget.plan?.warnings = course.planWarnings := by
  cases p with
  | constant c => cases planned
  | step s =>
      cases planned
      rfl
  | linear l =>
      cases planned
      rfl

/-- The ramp finds where it crosses the rate to hold: with the first period whose steps exceed the
distance between the rates, or nowhere if it is past that rate from the start on.  If it has not
been asked before, it answers every question without a warning. -/
def FindsCrossing (p : Pacer) : Prop :=
  ∀ course plan, p.planned? = some (course, plan) →
    (course.StartsBefore → ∃ phaseStart, plan.constantAt? = some phaseStart ∧
      phaseStart.nanos =
        (course.distance / course.ramp.step.toInt.natAbs + 1) * course.ramp.period.nanos) ∧
    (¬ course.StartsBefore → plan.constantAt? = none) ∧
    ∀ question, (p.forget.ask question).warnings = []

/-- In 53 bits a ramp with a rate to hold and no load duration finds the crossing exactly if the
period of the crossing starts within the 64-bit nanoseconds, or there is no crossing to be found.
Otherwise it goes on without a constant phase, and warns of that when the plan is worked out. -/
theorem findsCrossing_iff {p : Pacer} (built : p.Built) {course : Course} {plan : Plan}
    (planned : p.planned? = some (course, plan)) (exact : course.ExactSearch) :
    let steps := course.distance / course.ramp.step.toInt.natAbs + 1
    (p.FindsCrossing ↔
        (course.StartsBefore → steps * course.ramp.period.nanos ≤ wordMax)) ∧
      (course.StartsBefore → wordMax < steps * course.ramp.period.nanos →
        plan.constantAt? = none ∧
          p.forget.plan?.warnings = [.neverCrosses course.ramp course.hold.rate steps]) := by
  intro steps
  have followed : plan = course.plan := built.plan_eq planned
  subst followed
  have warned := warnings_plan?_forget planned
  refine ⟨⟨fun finds starts => ?_, fun fits other plan planned_other => ?_⟩,
    fun starts late => ?_⟩
  · by_contra late
    obtain ⟨phaseStart, begins, -⟩ := (finds course course.plan planned).1 starts
    have never := (exact.phase_of_late starts (not_le.mp late)).1
    cases begins.symm.trans never
  · cases planned.symm.trans planned_other
    have silent (none_warned : course.planWarnings = []) (question : Question) :
        (p.forget.ask question).warnings = [] := by
      rcases p.forget.ask_pacer question with ⟨-, quiet⟩ | ⟨-, same⟩
      · exact quiet
      · rw [same, warned, none_warned]
    by_cases starts : course.StartsBefore
    · obtain ⟨begins, none_warned⟩ := exact.phase_of_fits starts (fits starts)
      exact ⟨fun _ => begins, fun past => absurd starts past, silent none_warned⟩
    · obtain ⟨never, none_warned⟩ := exact.phase_of_past starts
      exact ⟨fun before => absurd before starts, fun _ => never, silent none_warned⟩
  · rw [warned]
    exact exact.phase_of_late starts late

/-- From 5 hits per second up by 7 after every 146 years, to hold 26: the fourth period starts
less than two seconds before the end of the 64-bit nanoseconds. -/
theorem findsCrossing_iff_last_second :
    let course : Course :=
      { ramp := ⟨5, 7, .ofSeconds 4611686018, by decide, by decide, by decide⟩
        hold := { rate := 26 } }
    let p : Pacer := .step { course }
    p.Built ∧ course.ExactSearch ∧ course.StartsBefore ∧ p.FindsCrossing ∧
      course.plan.constantAt? = some (.ofSeconds 18446744072) := by
  intro course p
  have made : StepPacer.make 5 7 (.ofSeconds 4611686018) = .ok { course :=
      { ramp := ⟨5, 7, .ofSeconds 4611686018, by decide, by decide, by decide⟩ } } := rfl
  have built : p.Built := (Built.step made).withHold { rate := 26 }
  have planned : p.planned? = some (course, course.plan) := rfl
  have exact : course.ExactSearch :=
    { timeless := rfl
      limited := by decide
      start_le := by decide
      hold_le := by decide }
  have starts : course.StartsBefore := by decide
  obtain ⟨finds_iff, -⟩ := findsCrossing_iff built planned exact
  have finds : p.FindsCrossing := finds_iff.mpr fun _ => by decide
  obtain ⟨phaseStart, begins, nanos⟩ := (finds course course.plan planned).1 starts
  have instant : phaseStart = .ofSeconds 18446744072 := by
    refine Span.ext (nanos.trans ?_)
    decide
  exact ⟨built, exact, starts, finds, begins.trans (congrArg some instant)⟩

/-- From one hit per second up by one after every 317 years, to hold 5: with the fifth step the
ramp is past that rate, but even two periods take more than the 64-bit nanoseconds. -/
theorem misses_late_crossing :
    let course : Course :=
      { ramp := ⟨1, 1, .ofSeconds 10000000000, by decide, by decide, by decide⟩
        hold := { rate := 5 } }
    let p : Pacer := .step { course }
    p.planned? = some (course, course.plan) ∧ course.ExactSearch ∧ course.StartsBefore ∧
      course.plan.constantAt? = none ∧
      p.plan?.warnings = [.neverCrosses course.ramp 5 5] ∧
      (p.rate (.ofSeconds 50000000000)).value = 6 ∧ ¬ p.FindsCrossing := by
  intro course p
  have planned : p.planned? = some (course, course.plan) := rfl
  have exact : course.ExactSearch :=
    { timeless := rfl
      limited := by decide
      start_le := by decide
      hold_le := by decide }
  have starts : course.StartsBefore := by decide
  have never : course.plan.constantAt? = none := by decide +kernel
  have warned : p.plan?.warnings = [.neverCrosses course.ramp 5 5] := by decide +kernel
  have rate : (p.rate (.ofSeconds 50000000000)).value = 6 := by decide +kernel
  refine ⟨planned, exact, starts, never, warned, rate, fun finds => ?_⟩
  obtain ⟨phaseStart, begins, -⟩ := (finds course course.plan planned).1 starts
  cases never.symm.trans begins

end Pacer

end LoadShape.Pacing
