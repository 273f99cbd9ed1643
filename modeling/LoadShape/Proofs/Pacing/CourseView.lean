import LoadShape.Pacing.Ramp
import Mathlib.Algebra.Order.Field.Rat

/-!
# What a course answers by

A caller that is owed hits is sent on.  Any other is answered by the ramp, by the pacer of the
constant phase once that has begun, and by neither if the phase has no rate.
-/

namespace LoadShape.Pacing

open LoadShape.Number LoadShape.Time

namespace ConstantPacer

/-- The hits are fewer than the rate makes due in the whole seconds. -/
def Behind (p : ConstantPacer) (elapsed : Span) (hits : UInt64) : Prop :=
  hits.toNat < p.owed elapsed

theorem pace_of_behind {p : ConstantPacer} {elapsed : Span} {hits : UInt64}
    (below : capped p.cap hits = false) (limited : p.rate ≠ 0) (behind : p.Behind elapsed hits) :
    p.pace elapsed hits = .now := by
  rw [pace, if_neg (by simp [below]), if_neg limited]
  exact if_pos behind

theorem pace_of_enough {p : ConstantPacer} {elapsed : Span} {hits : UInt64}
    (below : capped p.cap hits = false) (limited : p.rate ≠ 0)
    (enough : ¬ p.Behind elapsed hits) :
    p.pace elapsed hits =
      if 0 < p.interval ∧ scheduleEnd / p.interval < hits.toNat then .stop
      else .after (.ofNanos (p.dueNanos hits) - elapsed) := by
  rw [pace, if_neg (by simp [below]), if_neg limited]
  exact if_neg enough

/-- A hit within the range of schedules is due a second after its end at the latest. -/
theorem due_le_of_inRange {p : ConstantPacer} {hits : Nat}
    (inRange : hits ≤ scheduleEnd / p.interval) :
    (hits + 1) * p.interval ≤ scheduleEnd + nanosPerSecond := by
  have range : hits * p.interval ≤ scheduleEnd :=
    (Nat.mul_le_mul_right _ inRange).trans (Nat.div_mul_le_self _ _)
  rw [Nat.succ_mul]
  exact Nat.add_le_add range (Nat.div_le_self _ _)

end ConstantPacer

namespace Ramp

/-- The rate after `n` periods. -/
def rateOfPeriods (r : Ramp) (n : Nat) : Rat :=
  max 0 (rounded (rounded r.start.toNat + rounded (rounded r.step.toInt * rounded n)))

theorem rateAt_eq (r : Ramp) (elapsed : Span) :
    r.rateAt elapsed = r.rateOfPeriods (wholePeriods elapsed r.period).toNat := by
  unfold rateAt rateOfPeriods
  simp only
  split
  · next negative => rw [max_eq_left negative.le]
  · next nonneg => rw [max_eq_right (not_lt.mp nonneg)]

end Ramp

namespace Course

variable {c : Course} {plan : Plan} {elapsed : Span} {hits : UInt64}

@[simp]
theorem plan_hold (c : Course) : c.plan.hold = c.heldPacer := rfl

/-- The constant phase has not begun. -/
def OnRamp (plan : Plan) (elapsed : Span) : Prop :=
  ∀ phaseStart, plan.constantAt? = some phaseStart → elapsed < phaseStart

theorem onRamp_of_lt {phaseStart : Span} (begins : plan.constantAt? = some phaseStart)
    (before : elapsed < phaseStart) : OnRamp plan elapsed := by
  intro other begins_other
  cases begins.symm.trans begins_other
  exact before

theorem exists_phase_of_not_onRamp (left : ¬ OnRamp plan elapsed) :
    ∃ phaseStart, plan.constantAt? = some phaseStart ∧ phaseStart ≤ elapsed := by
  simp only [OnRamp, not_forall] at left
  obtain ⟨phaseStart, begins, begun⟩ := left
  exact ⟨phaseStart, begins, Nat.le_of_not_lt begun⟩

theorem pace_of_behind (behind : hits < wholePart (c.expectedHits plan elapsed)) :
    c.pace plan elapsed hits = .now := if_pos behind

/-- In the constant phase the pacer of that phase answers. -/
theorem pace_in_phase {phaseStart : Span} (begins : plan.constantAt? = some phaseStart)
    (begun : phaseStart ≤ elapsed)
    (enough : ¬ hits < wholePart (c.expectedHits plan elapsed)) :
    c.pace plan elapsed hits =
      if plan.hold.rate = 0 then .stop
      else plan.hold.pace (elapsed - phaseStart)
        (saturate (hits.toNat - plan.baseHits.toNat)) := by
  rw [pace, if_neg enough]
  simp only [begins, if_pos begun]

/-- Before the constant phase the ramp answers. -/
theorem pace_before_phase (onRamp : OnRamp plan elapsed)
    (enough : ¬ hits < wholePart (c.expectedHits plan elapsed)) :
    c.pace plan elapsed hits =
      if c.rate plan elapsed ≤ 0 then .stop
      else rampPace (c.rate plan elapsed) (c.expectedHits plan elapsed) hits := by
  rw [pace, if_neg enough]
  cases begins : plan.constantAt? with
  | none => rfl
  | some phaseStart =>
      have before := onRamp phaseStart begins
      exact if_neg (Nat.not_le_of_lt (Span.lt_iff.mp before))

/-- In the constant phase the rate is the one that is held. -/
theorem rate_in_phase {phaseStart : Span} (begins : plan.constantAt? = some phaseStart)
    (begun : phaseStart ≤ elapsed) : c.rate plan elapsed = rounded plan.hold.rate.toNat := by
  unfold rate rateWith
  simp only [begins, if_pos begun]

theorem rate_on_ramp (onRamp : OnRamp plan elapsed) :
    c.rate plan elapsed = c.ramp.rateAt elapsed := by
  unfold rate rateWith
  cases begins : plan.constantAt? with
  | none => rfl
  | some phaseStart =>
      have before := onRamp phaseStart begins
      exact if_neg (Nat.not_le_of_lt (Span.lt_iff.mp before))

end Course

end LoadShape.Pacing
