import LoadShape.Proofs.Pacing.PacerView

/-!
# Pacers as they are built

A pacer is made, changed by its builders and asked, in any order.  If it keeps a plan, then
that is the plan of its present course.
-/

namespace LoadShape.Pacing

open LoadShape.Time

namespace StepPacer

variable {p : StepPacer}

/-- A plan that is kept is the plan of the present course. -/
def Current (p : StepPacer) : Prop := ∀ plan, p.plan? = some plan → plan = p.course.plan

theorem current_of_none (unknown : p.plan? = none) : p.Current := by
  intro plan known
  rw [unknown] at known
  cases known

theorem Current.ready_value (current : p.Current) : p.ready.value = p.course.plan := by
  cases known : p.plan? with
  | none => simp [ready, known]
  | some plan => simp [ready, known, current plan known]

theorem Current.ready (current : p.Current) : p.ready.pacer.Current := by
  cases known : p.plan? with
  | none => simp [StepPacer.ready, Current, known]
  | some plan => rwa [ready_of_plan known]

/-- A question leaves the plan that is kept, or works out the one of the course. -/
theorem Current.asked (current : p.Current) {after : StepPacer}
    (asked : after = p ∨ after = p.ready.pacer) : after.Current := by
  rcases asked with rfl | rfl
  · exact current
  · exact current.ready

/-- A pacer that is made has a ramp and nothing else. -/
theorem exists_ramp_of_make {start : UInt64} {step : Int64} {period : Span}
    (made : make start step period = .ok p) :
    ∃ ramp : Ramp, ramp.period = period ∧ p = { course := { ramp } } := by
  unfold make at made
  split at made
  · cases made
  · split at made
    · cases made
    · split at made
      · cases made
      · cases made
        exact ⟨_, rfl, rfl⟩

end StepPacer

/-- A linear pacer that is made has a ramp with periods of a second. -/
theorem LinearPacer.exists_ramp_of_make {start : UInt64} {slope : Int64} {p : LinearPacer}
    (made : make start slope = .ok p) :
    ∃ ramp : Ramp, ramp.period = .ofSeconds 1 ∧ p = { slope, steps := { course := { ramp } } } := by
  unfold make at made
  split at made
  · cases made
  · split at made
    · cases made
    · split at made
      · cases made
      · next steps made_steps =>
          cases made
          obtain ⟨ramp, period, rfl⟩ := StepPacer.exists_ramp_of_make made_steps
          exact ⟨ramp, period, rfl⟩

namespace Pacer

/-- The pacers that come about when one is made, changed by its builders and asked. -/
inductive Built : Pacer → Prop
  | constant (pacer : ConstantPacer) : Built (.constant pacer)
  | step {start : UInt64} {step : Int64} {period : Span} {pacer : StepPacer}
      (made : StepPacer.make start step period = .ok pacer) : Built (.step pacer)
  | linear {start : UInt64} {slope : Int64} {pacer : LinearPacer}
      (made : LinearPacer.make start slope = .ok pacer) : Built (.linear pacer)
  | withCap {p : Pacer} (built : Built p) (cap : UInt64) : Built (p.withCap cap)
  | withHold {p : Pacer} (built : Built p) (hold : ConstantPacer) : Built (p.withHold hold)
  | withLoadDuration {p : Pacer} (built : Built p) (duration : Span) :
      Built (p.withLoadDuration duration)
  | pace {p : Pacer} (built : Built p) (elapsed : Span) (hits : UInt64) :
      Built (p.pace elapsed hits).pacer
  | rate {p : Pacer} (built : Built p) (elapsed : Span) : Built (p.rate elapsed).pacer
  | plan? {p : Pacer} (built : Built p) : Built p.plan?.pacer

/-- A plan that a ramp keeps is the plan of its present course. -/
def Current : Pacer → Prop
  | .constant _ => True
  | .step s => s.Current
  | .linear l => l.steps.Current

theorem Built.current {p : Pacer} (built : p.Built) : p.Current := by
  induction built with
  | constant pacer => trivial
  | step made =>
      obtain ⟨ramp, -, rfl⟩ := StepPacer.exists_ramp_of_make made
      exact StepPacer.current_of_none rfl
  | linear made =>
      obtain ⟨ramp, -, rfl⟩ := LinearPacer.exists_ramp_of_make made
      exact StepPacer.current_of_none rfl
  | @withCap p built cap current => cases p <;> exact current
  | @withHold p built hold current =>
      cases p with
      | constant c => trivial
      | step s => exact StepPacer.current_of_none rfl
      | linear l => exact StepPacer.current_of_none rfl
  | @withLoadDuration p built duration current =>
      cases p with
      | constant c => trivial
      | step s => exact StepPacer.current_of_none rfl
      | linear l => exact StepPacer.current_of_none rfl
  | @pace p built elapsed hits current =>
      cases p with
      | constant c => trivial
      | step s => exact StepPacer.Current.asked current (s.pacer_pace elapsed hits)
      | linear l => exact StepPacer.Current.asked current (l.steps_pace elapsed hits)
  | @rate p built elapsed current =>
      cases p with
      | constant c => trivial
      | step s => exact StepPacer.Current.ready current
      | linear l => exact StepPacer.Current.ready current
  | @plan? p built current =>
      cases p with
      | constant c => trivial
      | step s => exact StepPacer.Current.ready current
      | linear l => exact StepPacer.Current.ready current

/-- A ramp is followed by the plan of its present course. -/
theorem Built.plan_eq {p : Pacer} (built : p.Built) {course : Course} {plan : Plan}
    (planned : p.planned? = some (course, plan)) : plan = course.plan := by
  have current := built.current
  cases p with
  | constant c => cases planned
  | step s =>
      cases planned
      exact StepPacer.Current.ready_value current
  | linear l =>
      cases planned
      exact StepPacer.Current.ready_value current

/-- The load duration of a ramp is some time, and the periods of a linear one are seconds. -/
def WellTimed : Pacer → Prop
  | .constant _ => True
  | .step s => s.course.loadDuration? ≠ some .zero
  | .linear l => l.steps.course.loadDuration? ≠ some .zero ∧
      l.steps.course.ramp.period = .ofSeconds 1

theorem Built.wellTimed {p : Pacer} (built : p.Built) : p.WellTimed := by
  induction built with
  | constant pacer => trivial
  | step made =>
      obtain ⟨ramp, -, rfl⟩ := StepPacer.exists_ramp_of_make made
      exact nofun
  | linear made =>
      obtain ⟨ramp, period, rfl⟩ := LinearPacer.exists_ramp_of_make made
      exact ⟨nofun, period⟩
  | @withCap p built cap timed => cases p <;> exact timed
  | @withHold p built hold timed => cases p <;> exact timed
  | @withLoadDuration p built duration timed =>
      cases p with
      | constant c => trivial
      | step s => exact duration.nonzero?_ne_zero
      | linear l => exact ⟨duration.nonzero?_ne_zero, timed.2⟩
  | @pace p built elapsed hits timed =>
      cases p with
      | constant c => trivial
      | step s => simpa [WellTimed, Pacer.pace, lift] using timed
      | linear l => simpa [WellTimed, Pacer.pace, lift] using timed
  | @rate p built elapsed timed =>
      cases p with
      | constant c => trivial
      | step s => simpa [WellTimed, Pacer.rate, lift, StepPacer.rate] using timed
      | linear l =>
          simpa [WellTimed, Pacer.rate, lift, LinearPacer.rate, LinearPacer.ofSteps,
            StepPacer.rate] using timed
  | @plan? p built timed =>
      cases p with
      | constant c => trivial
      | step s => simpa [WellTimed, Pacer.plan?, lift] using timed
      | linear l =>
          simpa [WellTimed, Pacer.plan?, lift, LinearPacer.ready, LinearPacer.ofSteps] using timed

theorem Built.loadDuration_ne_zero {p : Pacer} (built : p.Built) {course : Course} {plan : Plan}
    (planned : p.planned? = some (course, plan)) : course.loadDuration? ≠ some .zero := by
  have timed := built.wellTimed
  cases p with
  | constant c => cases planned
  | step s =>
      cases planned
      exact timed
  | linear l =>
      cases planned
      exact timed.1

theorem Built.period_of_linear {l : LinearPacer} (built : Built (.linear l)) {course : Course}
    {plan : Plan} (planned : planned? (.linear l) = some (course, plan)) :
    course.ramp.period = .ofSeconds 1 := by
  cases planned
  exact built.wellTimed.2

end Pacer

end LoadShape.Pacing
