import LoadShape.Proofs.Pacing.BuiltPacer
import LoadShape.Proofs.Pacing.WholeSeconds

/-!
# When owed hits are forgotten

Hits that a ramp was behind by at one time are owed later as well, unless its constant phase
begins in the middle of a period and makes fewer due than the ramp did.  Then, and only then, a
caller may be asked to wait for hits that were owed before.
-/

namespace LoadShape.Pacing

open LoadShape.Number LoadShape.Time

/-! ## Constant rates -/

namespace ConstantPacer

variable {p : ConstantPacer} {elapsed : Span} {hits : UInt64}

theorem wait_of_behind (behind : p.Behind elapsed hits) :
    (p.pace elapsed hits).wait = .zero := by
  unfold Behind at behind
  unfold pace
  split_ifs <;> rfl

/-- There is no wait for more than a hit per nanosecond. -/
theorem wait_of_no_interval (none_between : p.interval = 0) :
    (p.pace elapsed hits).wait = .zero := by
  have due : p.dueNanos hits = 0 := by rw [dueNanos, none_between, Nat.mul_zero]
  unfold pace
  split_ifs
  · rfl
  · rfl
  · rfl
  · rfl
  · rw [due]
    exact Span.ext (Nat.zero_sub _)

theorem interval_pos (limited : p.rate ≠ 0) (slow : p.rate.toNat ≤ nanosPerSecond) :
    0 < p.interval :=
  Nat.div_pos slow (toNat_pos limited)

/-- The first hit is due after a whole interval. -/
theorem pace_at_start (limited : p.rate ≠ 0) (start : elapsed.nanos = 0) :
    p.pace elapsed 0 = .after (.ofNanos p.interval - elapsed) := by
  have below : capped p.cap 0 = false := by
    simp only [capped, Bool.and_eq_false_iff, decide_eq_false_iff_not]
    exact (em (0 < p.cap)).symm.imp_right UInt64.not_le.mpr
  have none_owed : ¬ (0 : UInt64).toNat < p.owed elapsed := by
    simp [owed, Span.seconds, start]
  have due : p.dueNanos 0 = p.interval := by
    rw [dueNanos, toNat_next]
    exact Nat.one_mul _
  have inRange : ¬ (0 < p.interval ∧ scheduleEnd / p.interval < (0 : UInt64).toNat) :=
    fun out => Nat.not_lt_zero _ out.2
  rw [pace, below, if_neg Bool.false_ne_true, if_neg limited, if_neg none_owed, if_neg inRange,
    due]

theorem waits_at_start (limited : p.rate ≠ 0) (slow : p.rate.toNat ≤ nanosPerSecond)
    (start : elapsed.nanos = 0) : (p.pace elapsed 0).wait ≠ .zero := by
  rw [pace_at_start limited start]
  intro idle
  have nanos : (Span.ofNanos p.interval).nanos - elapsed.nanos = 0 := congrArg Span.nanos idle
  rw [start, Nat.sub_zero, Span.nanos_ofNanos] at nanos
  · exact (interval_pos limited slow).ne' nanos
  · exact Nat.lt_of_le_of_lt (Nat.div_le_self _ _) (by decide)

end ConstantPacer

/-! ## Ramps -/

namespace Course

variable {c : Course} {t later horizon : Nat} {hits : UInt64}

/-- If the schedule does not forget owed hits, then nobody waits for them. -/
theorem wait_of_owed (exact : c.ExactUntil horizon) (kept : ¬ c.wholeSchedule.Forgets horizon)
    (le : t ≤ later) (in_time : later ≤ horizon)
    (owed : hits.toNat < c.wholeSchedule.hits t) :
    (c.pace c.plan (wholeSeconds later) hits).wait = .zero := by
  by_cases behind : hits < wholePart (c.expectedHits c.plan (wholeSeconds later))
  · rw [pace_of_behind behind]
    rfl
  · have enough : c.wholeSchedule.hits later ≤ hits.toNat := by
      rw [UInt64.lt_iff_toNat_lt, exact.wholePart_expectedHits in_time] at behind
      exact not_lt.mp behind
    obtain ⟨phase, split, begun, reason⟩ :=
      WholeSchedule.owed_or_dropped exact.period_pos le owed enough
    have phase_le := begun.trans in_time
    have begins := exact.times.constantAt?_eq split.1
    rw [pace_in_phase begins (wholeSeconds_mono begun) behind, plan_hold]
    by_cases idle : c.heldPacer.rate = 0
    · rw [if_pos idle]
      rfl
    · rw [if_neg idle]
      have held_pos : 0 < c.wholeSchedule.held := toNat_pos idle
      rcases reason with none_held | owed_in_phase | drop
      · exact absurd none_held held_pos.ne'
      · refine ConstantPacer.wait_of_behind ?_
        have total := exact.hits_le t (le.trans in_time)
        have small := exact.seconds_le in_time
        rw [ConstantPacer.Behind, owed_wholeSeconds _ begun small,
          exact.baseHits_eq phase_le split.1, toNat_saturate]
        refine lt_min (Nat.lt_of_le_of_lt (Nat.min_le_left _ _) owed_in_phase) ?_
        unfold wordMax
        omega
      · refine ConstantPacer.wait_of_no_interval ?_
        have fast : nanosPerSecond < c.wholeSchedule.held := by
          by_contra slow
          exact kept ⟨held_pos, not_lt.mp slow, phase, split.1, phase_le, drop⟩
        exact Nat.div_eq_of_lt fast

/-- If the schedule forgets owed hits, then a caller in the second with which the constant
phase begins waits for hits that were owed a second before. -/
theorem wait_of_forgets (exact : c.ExactUntil horizon)
    (forgets : c.wholeSchedule.Forgets horizon) :
    ∃ t later hits, t ≤ later ∧ later ≤ horizon ∧
      hits < wholePart (c.expectedHits c.plan (wholeSeconds t)) ∧
        (c.pace c.plan (wholeSeconds later) hits).wait ≠ .zero := by
  obtain ⟨held_pos, slow, phase, starts, in_time, drops⟩ := forgets
  have drop : c.wholeSchedule.hits phase < c.wholeSchedule.hits (phase - 1) :=
    (WholeSchedule.hits_drop_iff exact.period_pos (drops.splitAt starts)).mpr drops
  have begins := exact.times.constantAt?_eq starts
  have sent : (saturate (c.wholeSchedule.hits phase)).toNat = c.wholeSchedule.hits phase := by
    have total := exact.hits_le phase in_time
    rw [toNat_saturate]
    unfold wordMax
    omega
  refine ⟨phase - 1, phase, saturate (c.wholeSchedule.hits phase), Nat.sub_le _ _, in_time,
    ?_, ?_⟩
  · rw [UInt64.lt_iff_toNat_lt, sent, exact.wholePart_expectedHits ((Nat.sub_le _ _).trans in_time)]
    exact drop
  · have enough : ¬ saturate (c.wholeSchedule.hits phase) <
        wholePart (c.expectedHits c.plan (wholeSeconds phase)) := by
      rw [UInt64.lt_iff_toNat_lt, sent, exact.wholePart_expectedHits in_time]
      exact Nat.lt_irrefl _
    have limited : c.heldPacer.rate ≠ 0 := fun zero =>
      held_pos.ne' (congrArg UInt64.toNat zero)
    have none_sent : saturate ((saturate (c.wholeSchedule.hits phase)).toNat -
        c.plan.baseHits.toNat) = 0 := by
      rw [sent, exact.baseHits_eq in_time starts, Nat.sub_self]
      rfl
    rw [pace_in_phase begins (wholeSeconds_mono (Nat.le_refl _)) enough, none_sent, plan_hold,
      if_neg limited]
    exact ConstantPacer.waits_at_start limited slow (Nat.sub_self _)

end Course

/-! ## Pacers -/

namespace Pacer

/-- No caller until the second `horizon` waits for hits that were owed to an earlier one. -/
def KeepsOwedHits (p : Pacer) (horizon : Nat) : Prop :=
  ∀ course plan, p.planned? = some (course, plan) → ∀ t later, t ≤ later → later ≤ horizon →
    ∀ hits, hits < wholePart (course.expectedHits plan (wholeSeconds t)) →
      (p.pace (wholeSeconds t) hits).value = .now ∧
        (p.pace (wholeSeconds later) hits).value.wait = .zero

/-- A ramp without a cap keeps owed hits exactly as long as its schedule does not forget
them. -/
theorem keepsOwedHits_iff {p : Pacer} (built : p.Built) {course : Course} {plan : Plan}
    (planned : p.planned? = some (course, plan)) (uncapped : ∀ hits, p.capped hits = false)
    {horizon : Nat} (exact : course.ExactUntil horizon) :
    p.KeepsOwedHits horizon ↔ ¬ course.wholeSchedule.Forgets horizon := by
  have followed : plan = course.plan := built.plan_eq planned
  subst followed
  constructor
  · intro keeps forgets
    obtain ⟨t, later, hits, le, in_time, owed, waits⟩ := Course.wait_of_forgets exact forgets
    have idle := (keeps course course.plan planned t later le in_time hits owed).2
    rw [pace_of_planned planned (uncapped hits)] at idle
    exact waits idle
  · intro kept other plan planned_other t later le in_time hits owed
    cases planned.symm.trans planned_other
    rw [pace_of_planned planned (uncapped hits), pace_of_planned planned (uncapped hits)]
    refine ⟨Course.pace_of_behind owed, Course.wait_of_owed exact kept le in_time ?_⟩
    rwa [UInt64.lt_iff_toNat_lt, exact.wholePart_expectedHits (le.trans in_time)] at owed

/-- Hits that are due after 14 seconds are forgotten after 15: at ten hits per second for ten
seconds and nine for four 136 of them are due, and 105 as soon as the last five seconds are
counted at one hit per second. -/
theorem keepsOwedHits_until_split :
    let course : Course :=
      { ramp := ⟨10, -1, .ofSeconds 10, by decide, by decide, by decide⟩
        hold := { rate := 1 }
        loadDuration? := some (.ofSeconds 15) }
    let p : Pacer := .step { course }
    p.Built ∧ course.ExactUntil 15 ∧ p.KeepsOwedHits 14 ∧ ¬ p.KeepsOwedHits 15 := by
  intro course p
  have made : StepPacer.make 10 (-1) (.ofSeconds 10) = .ok { course :=
      { ramp := ⟨10, -1, .ofSeconds 10, by decide, by decide, by decide⟩ } } := rfl
  have built : p.Built :=
    ((Built.step made).withHold { rate := 1 }).withLoadDuration (.ofSeconds 15)
  have planned : p.planned? = some (course, course.plan) := rfl
  have uncapped : ∀ hits, p.capped hits = false := fun hits => rfl
  have duration_whole : ∀ duration, course.loadDuration? = some duration →
      duration.subseconds = 0 := by
    intro duration set
    cases set
    decide
  have exact : course.ExactUntil 15 :=
    ⟨by decide, by decide, duration_whole, by decide, by decide, by decide⟩
  have before := keepsOwedHits_iff built planned uncapped (exact.mono (show 14 ≤ 15 by decide))
  have after := keepsOwedHits_iff built planned uncapped exact
  refine ⟨built, exact, before.mpr (by decide), fun keeps => ?_⟩
  exact after.mp keeps (by decide)

/-- The caller that has sent 120 hits is sent on after 14 seconds and waits after 15. -/
theorem waits_for_owed_hits :
    let p : Pacer := .step { course :=
      { ramp := ⟨10, -1, .ofSeconds 10, by decide, by decide, by decide⟩
        hold := { rate := 1 }
        loadDuration? := some (.ofSeconds 15) } }
    p.planned?.map (fun (course, plan) =>
        wholePart (course.expectedHits plan (.ofSeconds 14))) = some 136 ∧
      (p.pace (.ofSeconds 14) 120).value = .now ∧
      (p.pace (.ofSeconds 15) 120).value = .after (.ofSeconds 16) := by
  decide +kernel

end Pacer

end LoadShape.Pacing
