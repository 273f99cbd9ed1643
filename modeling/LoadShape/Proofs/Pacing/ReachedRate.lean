import LoadShape.Proofs.Pacing.WholeSeconds

/-!
# Ramps that hold the rate they have reached

A ramp that is given a load duration and no rate to hold goes on at the rate that it has reached
by then.  That rate is worked out twice, once in whole numbers for the constant phase and once
with rounding along the ramp, and both come to the same as long as 53 bits are enough for them.
-/

namespace LoadShape.Pacing

open LoadShape.Number LoadShape.Time

/-! ## The rate after some steps -/

/-- The number of whole periods, as long as it takes no more than 53 bits. -/
theorem wholePeriods_eq_div {elapsed period : Span} (few : elapsed.nanos / period.nanos ≤ 2 ^ 53) :
    (wholePeriods elapsed period).toNat = elapsed.nanos / period.nanos := by
  rw [wholePeriods, toNat_saturate, Nat.min_eq_left (le_wordMax_of_exact few)]

namespace Ramp

variable {r : Ramp} {n : Nat}

/-- The rate after `n` steps in whole numbers; a ramp that falls may take it below zero. -/
def wholeRate (r : Ramp) (n : Nat) : Int := r.start.toNat + r.step.toInt * n

/-- The start rate, what `n` steps change of it, and what they make of it take no more than 53
bits. -/
structure ExactAfter (r : Ramp) (n : Nat) : Prop where
  start_le : r.start.toNat ≤ 2 ^ 53
  change_le : |r.step.toInt * n| ≤ 2 ^ 53
  rate_le : |r.wholeRate n| ≤ 2 ^ 53

namespace ExactAfter

variable (exact : r.ExactAfter n)
include exact

theorem periods_le : n ≤ 2 ^ 53 := periods_le_of_change_le exact.change_le

theorem reached_le : (r.wholeRate n).toNat ≤ 2 ^ 53 := by
  have bounds := (abs_le.mp exact.rate_le).2
  omega

/-- In whole numbers the rate is kept from going below zero, and needs not be kept from growing
too large. -/
theorem rateAfter_eq : (r.rateAfter n).toNat = (r.wholeRate n).toNat := by
  have fits := le_wordMax_of_exact exact.reached_le
  rw [wholeRate] at fits
  rw [rateAfter, toNat_saturate, wholeRate, Nat.min_eq_left fits]

/-- Along the ramp the rate is not rounded. -/
theorem rateOfPeriods_eq : r.rateOfPeriods n = (r.wholeRate n).toNat :=
  Ramp.rateOfPeriods_eq exact.start_le exact.periods_le (abs_le.mp exact.rate_le).2

end ExactAfter

end Ramp

/-! ## The rate that is held -/

namespace Course

variable {c : Course} {duration t : Span} {hits : UInt64}

/-- The steps that the ramp has made when the load duration is over. -/
def stepsWithin (c : Course) (duration : Span) : Nat := duration.nanos / c.ramp.period.nanos

/-- A course that holds the rate that its ramp has reached after the load duration, which takes
no more than 53 bits. -/
structure HoldsReached (c : Course) (duration : Span) : Prop where
  timed : c.loadDuration? = some duration
  unset : c.hold.rate = 0
  exact : c.ramp.ExactAfter (c.stepsWithin duration)

namespace HoldsReached

variable (reached : c.HoldsReached duration)
include reached

theorem begins : c.plan.constantAt? = some duration := by
  simp [plan, constantAt?, reached.timed]

theorem wholePeriods_eq : (wholePeriods duration c.ramp.period).toNat = c.stepsWithin duration :=
  wholePeriods_eq_div reached.exact.periods_le

theorem held_eq : c.plan.hold.rate.toNat = (c.ramp.wholeRate (c.stepsWithin duration)).toNat := by
  have hold : c.plan.hold = { rate := c.ramp.rateAfter (c.stepsWithin duration) } := by
    simp [heldPacer, reached.timed, reached.unset, reached.wholePeriods_eq]
  rw [hold, reached.exact.rateAfter_eq]

theorem held_le : c.plan.hold.rate.toNat ≤ 2 ^ 53 := by
  rw [reached.held_eq]
  exact reached.exact.reached_le

/-- In every period the ramp has the rate that its steps before make. -/
theorem rateAt_of_same_step (same : t.nanos / c.ramp.period.nanos = c.stepsWithin duration) :
    c.ramp.rateAt t = c.plan.hold.rate.toNat := by
  have few : t.nanos / c.ramp.period.nanos ≤ 2 ^ 53 := by
    rw [same]
    exact reached.exact.periods_le
  rw [Ramp.rateAt_eq, wholePeriods_eq_div few, same, reached.exact.rateOfPeriods_eq,
    reached.held_eq]

/-- The rate that is held is the one of the ramp when the load duration is over. -/
theorem rateAt_duration : c.ramp.rateAt duration = c.plan.hold.rate.toNat :=
  reached.rateAt_of_same_step rfl

theorem rate_from (begun : duration ≤ t) : c.rate c.plan t = c.plan.hold.rate.toNat := by
  rw [rate_in_phase reached.begins begun, rounded_natCast reached.held_le]

/-- The constant phase is entered at the rate of the ramp. -/
theorem rate_until (le : t ≤ duration) : c.rate c.plan t = c.ramp.rateAt t := by
  rcases Nat.eq_or_lt_of_le (Span.le_iff.mp le) with last | before
  · rw [Span.ext last, reached.rate_from (Nat.le_refl _), reached.rateAt_duration]
  · exact rate_on_ramp (onRamp_of_lt reached.begins before)

theorem rate_notPast {later : Span} (le : t ≤ later) :
    c.ramp.NotPast (c.rate c.plan t) (c.rate c.plan later) := by
  refine rate_notPast_of_held reached.begins (fun sooner early => ?_) le
  rw [rounded_natCast reached.held_le, ← reached.rateAt_duration]
  exact c.ramp.rateAt_notPast (Nat.le_of_lt (Span.lt_iff.mp early))

/-- After a ramp that has fallen to nothing no hit is waited for. -/
theorem pace_of_fallen (fallen : c.ramp.wholeRate (c.stepsWithin duration) ≤ 0)
    (begun : duration ≤ t) :
    c.pace c.plan t hits =
      if hits < wholePart (c.expectedHits c.plan t) then .now else .stop := by
  split
  · next behind => exact pace_of_behind behind
  · next enough =>
      have none_held : c.plan.hold.rate = 0 := by
        rw [← UInt64.toNat_inj, reached.held_eq, Int.toNat_of_nonpos fallen]
        rfl
      rw [pace_in_phase reached.begins begun enough, if_pos none_held]

end HoldsReached

end Course

/-! ## Pacers -/

namespace Pacer

/-- After its load duration a ramp with no rate to hold holds the rate that it has reached.  The
constant phase begins with the end of the load duration, at the rate that the ramp has then, in
the middle of a period or not; in whole numbers that is the start rate with its steps, or zero
if they take it below.  The rate does not turn back at any time.  If the ramp has fallen to
nothing, a worker is sent on while its hits are fewer than the whole hits due, and is told to stop
after that. -/
theorem holds_reached_rate {p : Pacer} (built : p.Built)
    (uncapped : ∀ hits, p.capped hits = false) {course : Course} {plan : Plan}
    (planned : p.planned? = some (course, plan)) {duration : Span}
    (reached : course.HoldsReached duration) :
    plan.constantAt? = some duration ∧
      (plan.hold.rate.toNat : Int) = max 0 (course.ramp.wholeRate (course.stepsWithin duration)) ∧
      course.ramp.rateAt duration = plan.hold.rate.toNat ∧
      (∀ t, t ≤ duration → (p.rate t).value = course.ramp.rateAt t) ∧
      (∀ t, t.nanos / course.ramp.period.nanos = course.stepsWithin duration →
        (p.rate t).value = plan.hold.rate.toNat) ∧
      (∀ t, duration ≤ t → (p.rate t).value = plan.hold.rate.toNat) ∧
      (∀ t later, t ≤ later → course.ramp.NotPast (p.rate t).value (p.rate later).value) ∧
      (course.ramp.wholeRate (course.stepsWithin duration) ≤ 0 →
        ∀ t, duration ≤ t → ∀ hits, (p.pace t hits).value =
          if hits < wholePart (course.expectedHits plan t) then .now else .stop) := by
  have followed : plan = course.plan := built.plan_eq planned
  subst followed
  simp only [rate_of_planned planned]
  refine ⟨reached.begins, ?_, reached.rateAt_duration, fun t le => reached.rate_until le,
    fun t same => ?_, fun t begun => reached.rate_from begun,
    fun t later le => reached.rate_notPast le, fun fallen t begun hits => ?_⟩
  · rw [reached.held_eq, Int.toNat_eq_max, max_comm]
  · rcases Nat.le_total t.nanos duration.nanos with le | begun
    · rw [reached.rate_until le]
      exact reached.rateAt_of_same_step same
    · exact reached.rate_from begun
  · rw [pace_of_planned planned (uncapped hits)]
    exact reached.pace_of_fallen fallen begun

/-- A ramp from 10 hits per second down by 5 every 4 seconds has fallen to nothing when its load
duration of 10 seconds ends in the third period, with 60 hits due. -/
theorem holds_reached_rate_fallen :
    let course : Course :=
      { ramp := ⟨10, -5, .ofSeconds 4, by decide, by decide, by decide⟩
        loadDuration? := some (.ofSeconds 10) }
    let p : Pacer := .step { course }
    p.Built ∧ (p.rate (.ofSeconds 7)).value = 5 ∧ (p.rate (.ofSeconds 20)).value = 0 ∧
      (p.pace (.ofSeconds 20) 59).value = .now ∧ (p.pace (.ofSeconds 20) 60).value = .stop := by
  intro course p
  have made : StepPacer.make 10 (-5) (.ofSeconds 4) = .ok { course :=
      { ramp := ⟨10, -5, .ofSeconds 4, by decide, by decide, by decide⟩ } } := rfl
  have built : p.Built := (Built.step made).withLoadDuration (.ofSeconds 10)
  have planned : p.planned? = some (course, course.plan) := rfl
  have uncapped (hits : UInt64) : p.capped hits = false := rfl
  have reached : course.HoldsReached (.ofSeconds 10) :=
    ⟨rfl, rfl, ⟨by decide, by decide, by decide⟩⟩
  obtain ⟨-, held, -, until_end, -, from_end, -, fallen⟩ :=
    holds_reached_rate built uncapped planned reached
  have fell : course.ramp.wholeRate (course.stepsWithin (.ofSeconds 10)) = 0 := by decide
  rw [fell, max_self, Nat.cast_eq_zero] at held
  have sooner : Span.ofSeconds 7 ≤ .ofSeconds 10 := by decide
  have later : Span.ofSeconds 10 ≤ .ofSeconds 20 := by decide
  have due : wholePart (course.expectedHits course.plan (.ofSeconds 20)) = 60 := by decide +kernel
  refine ⟨built, ?_, ?_, ?_, ?_⟩
  · rw [until_end _ sooner]
    decide +kernel
  · rw [from_end _ later, held, Nat.cast_zero]
  · rw [fallen fell.le _ later, due]
    rfl
  · rw [fallen fell.le _ later, due]
    rfl

end Pacer

end LoadShape.Pacing
