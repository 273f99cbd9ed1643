import LoadShape.Pacing.Pacer

/-!
# What a pacer answers by

A pacer stops for a cap of its own, and otherwise answers by its constant rate or by its
course and plan.  The plan is kept once it is worked out, and so it makes no difference
which questions a pacer was asked before.
-/

namespace LoadShape.Pacing

open LoadShape.Number LoadShape.Time

namespace StepPacer

/-- Working out the plan does not change it. -/
@[simp]
theorem ready_value_ready (p : StepPacer) : p.ready.pacer.ready.value = p.ready.value := by
  cases known : p.plan? with
  | none => simp [ready, known]
  | some plan => simp [ready, known]

@[simp]
theorem ready_course (p : StepPacer) : p.ready.pacer.course = p.course := by
  cases known : p.plan? with
  | none => simp [ready, known]
  | some plan => simp [ready, known]

@[simp]
theorem ready_cap (p : StepPacer) : p.ready.pacer.cap = p.cap := by
  cases known : p.plan? with
  | none => simp [ready, known]
  | some plan => simp [ready, known]

/-- A question leaves a step pacer as it is, or with its plan worked out. -/
theorem pacer_pace (p : StepPacer) (elapsed : Span) (hits : UInt64) :
    (p.pace elapsed hits).pacer = p ∨ (p.pace elapsed hits).pacer = p.ready.pacer := by
  unfold pace
  split
  · exact Or.inl rfl
  · exact Or.inr rfl

@[simp]
theorem course_pace (p : StepPacer) (elapsed : Span) (hits : UInt64) :
    (p.pace elapsed hits).pacer.course = p.course := by
  rcases p.pacer_pace elapsed hits with same | ready
  · rw [same]
  · rw [ready, ready_course]

end StepPacer

namespace LinearPacer

@[simp]
theorem course_pace (p : LinearPacer) (elapsed : Span) (hits : UInt64) :
    (p.pace elapsed hits).pacer.steps.course = p.steps.course := by
  unfold pace
  split
  · rfl
  · exact p.steps.course_pace elapsed hits

theorem cap_pace (p : LinearPacer) (elapsed : Span) (hits : UInt64) :
    (p.pace elapsed hits).pacer.cap = p.cap := by
  unfold pace
  split <;> rfl

theorem steps_pace (p : LinearPacer) (elapsed : Span) (hits : UInt64) :
    (p.pace elapsed hits).pacer.steps = p.steps ∨
      (p.pace elapsed hits).pacer.steps = p.steps.ready.pacer := by
  unfold pace
  split
  · exact Or.inl rfl
  · exact p.steps.pacer_pace elapsed hits

end LinearPacer

namespace Pacer

/-- Whether the hits reach a cap of the pacer's own. -/
def capped : Pacer → UInt64 → Bool
  | .constant c, hits => ConstantPacer.capped c.cap hits
  | .step s, hits => ConstantPacer.capped s.cap hits
  | .linear l, hits => ConstantPacer.capped l.cap hits || ConstantPacer.capped l.steps.cap hits

/-- The course of a ramp and the plan by which it is followed. -/
def planned? : Pacer → Option (Course × Plan)
  | .constant _ => none
  | .step s => some (s.course, s.ready.value)
  | .linear l => some (l.steps.course, l.steps.ready.value)

theorem pace_of_capped {p : Pacer} {hits : UInt64} (reached : p.capped hits = true)
    (elapsed : Span) : (p.pace elapsed hits).value = .stop := by
  cases p with
  | constant c => exact ConstantPacer.pace_of_capped reached elapsed
  | step s => simp [pace, lift, StepPacer.pace, show ConstantPacer.capped s.cap hits from reached]
  | linear l =>
      simp only [capped, Bool.or_eq_true] at reached
      by_cases outer : ConstantPacer.capped l.cap hits = true
      · simp [pace, lift, LinearPacer.pace, outer]
      · have inner := reached.resolve_left outer
        simp [pace, lift, LinearPacer.pace, LinearPacer.ofSteps, StepPacer.pace, outer, inner]

/-- Below its own caps a ramp answers by its course and plan. -/
theorem pace_of_planned {p : Pacer} {course : Course} {plan : Plan}
    (planned : p.planned? = some (course, plan)) {hits : UInt64}
    (below : p.capped hits = false) (elapsed : Span) :
    (p.pace elapsed hits).value = course.pace plan elapsed hits := by
  cases p with
  | constant c => cases planned
  | step s =>
      cases planned
      simp [pace, lift, StepPacer.pace, show ConstantPacer.capped s.cap hits = false from below]
  | linear l =>
      cases planned
      simp only [capped, Bool.or_eq_false_iff] at below
      simp [pace, lift, LinearPacer.pace, LinearPacer.ofSteps, StepPacer.pace, below.1, below.2]

theorem rate_of_planned {p : Pacer} {course : Course} {plan : Plan}
    (planned : p.planned? = some (course, plan)) (elapsed : Span) :
    (p.rate elapsed).value = course.rate plan elapsed := by
  cases p with
  | constant c => cases planned
  | step s =>
      cases planned
      rfl
  | linear l =>
      cases planned
      rfl

theorem plan?_of_planned {p : Pacer} {course : Course} {plan : Plan}
    (planned : p.planned? = some (course, plan)) : p.plan?.value = some plan := by
  cases p with
  | constant c => cases planned
  | step s =>
      cases planned
      rfl
  | linear l =>
      cases planned
      rfl

/-- What a pacer answers by stays the same when it is asked. -/
theorem capped_pace (p : Pacer) (elapsed : Span) (hits more : UInt64) :
    (p.pace elapsed hits).pacer.capped more = p.capped more := by
  cases p with
  | constant c => rfl
  | step s => rcases s.pacer_pace elapsed hits with same | ready <;> simp [pace, lift, capped, *]
  | linear l =>
      have cap := l.cap_pace elapsed hits
      rcases l.steps_pace elapsed hits with same | ready <;> simp [pace, lift, capped, *]

theorem planned?_pace (p : Pacer) (elapsed : Span) (hits : UInt64) :
    (p.pace elapsed hits).pacer.planned? = p.planned? := by
  cases p with
  | constant c => rfl
  | step s =>
      rcases s.pacer_pace elapsed hits with same | ready <;> simp [pace, lift, planned?, *]
  | linear l =>
      rcases l.steps_pace elapsed hits with same | ready <;> simp [pace, lift, planned?, *]

/-- A pacer answers the same whether it was asked before or not, so callers can share it. -/
theorem pace_pace (p : Pacer) (elapsed later : Span) (hits more : UInt64) :
    ((p.pace elapsed hits).pacer.pace later more).value = (p.pace later more).value := by
  cases planned : p.planned? with
  | none =>
      cases p with
      | constant c => rfl
      | step s => cases planned
      | linear l => cases planned
  | some followed =>
      obtain ⟨course, plan⟩ := followed
      have still := p.planned?_pace elapsed hits
      rw [planned] at still
      have caps := p.capped_pace elapsed hits more
      cases reached : p.capped more with
      | true => rw [pace_of_capped reached, pace_of_capped (caps.trans reached)]
      | false => rw [pace_of_planned planned reached, pace_of_planned still (caps.trans reached)]

end Pacer

end LoadShape.Pacing
