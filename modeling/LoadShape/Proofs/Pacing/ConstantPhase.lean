import LoadShape.Proofs.Pacing.BuiltPacer
import LoadShape.Proofs.Pacing.WholeSeconds

/-!
# The constant phase as a pacer of its own

A ramp in its constant phase first compares the hits with all that are expected since the
beginning, and then hands the rest of them to the pacer that is held.  The two comparisons
agree, so the phase is paced as by a constant pacer that starts with it.
-/

namespace LoadShape.Pacing

open LoadShape.Number LoadShape.Time

namespace Course

variable {c : Course} {plan : Plan} {t phase : Nat} {hits : UInt64}

/-- Where both comparisons agree, the pacer of the constant phase alone decides. -/
theorem pace_of_agreement {elapsed phaseStart : Span}
    (begins : plan.constantAt? = some phaseStart) (begun : phaseStart ≤ elapsed)
    (limited : plan.hold.rate ≠ 0) (uncapped : plan.hold.cap = 0)
    (counted : plan.baseHits ≤ hits)
    (agree : hits < wholePart (c.expectedHits plan elapsed) ↔
      plan.hold.Behind (elapsed - phaseStart) (hits - plan.baseHits)) :
    c.pace plan elapsed hits =
      plan.hold.pace (elapsed - phaseStart) (hits - plan.baseHits) := by
  by_cases behind : hits < wholePart (c.expectedHits plan elapsed)
  · have below : ConstantPacer.capped plan.hold.cap (hits - plan.baseHits) = false := by
      rw [uncapped]
      rfl
    rw [pace_of_behind behind, ConstantPacer.pace_of_behind below limited (agree.mp behind)]
  · have since : saturate (hits.toNat - plan.baseHits.toNat) = hits - plan.baseHits := by
      refine UInt64.toNat_inj.mp ?_
      rw [toNat_saturate, UInt64.toNat_sub_of_le _ _ counted]
      exact Nat.min_eq_left ((Nat.sub_le _ _).trans (Nat.le_of_lt_succ hits.toNat_lt))
    rw [pace_in_phase begins begun behind, if_neg limited, since]

namespace ExactAt

variable (exact : c.ExactAt t) (steady : c.wholeSchedule.Steady)
include exact steady

/-- In the constant phase hits are expected at the rate that is held, beyond those that were due
before it. -/
theorem wholePart_in_phase (starts : phase ∈ c.wholeSchedule.phase?) (begun : phase ≤ t) :
    (wholePart (c.expectedHits c.plan (wholeSeconds t))).toNat =
      c.plan.baseHits.toNat + c.heldPacer.rate.toNat * (t - phase) := by
  rw [exact.wholePart_expectedHits, (exact.mono steady begun).baseHits_eq starts]
  exact steady.hits_from_phase exact.period_pos starts begun

/-- Both comparisons of the hits with those that are due come out the same. -/
theorem behind_iff (starts : phase ∈ c.wholeSchedule.phase?) (begun : phase ≤ t)
    (counted : c.plan.baseHits ≤ hits) :
    hits < wholePart (c.expectedHits c.plan (wholeSeconds t)) ↔
      c.heldPacer.Behind (wholeSeconds t - wholeSeconds phase) (hits - c.plan.baseHits) := by
  have counted_nat := UInt64.le_iff_toNat_le.mp counted
  have due := exact.wholePart_in_phase steady starts begun
  have owed : c.heldPacer.rate.toNat * (t - phase) ≤ wordMax := by
    have total := UInt64.toNat_lt (wholePart (c.expectedHits c.plan (wholeSeconds t)))
    unfold wordMax
    omega
  rw [ConstantPacer.Behind, owed_wholeSeconds _ begun exact.le_wordMax, Nat.min_eq_left owed,
    UInt64.lt_iff_toNat_lt, due, UInt64.toNat_sub_of_le _ _ counted]
  omega

end ExactAt

end Course

namespace Pacer

/-- In its constant phase a ramp without a cap paces as a constant pacer of the held rate that
starts with the phase and with no hits: it is behind when that one is, and it waits or stops as
that one does. -/
theorem phase_paced_as_constant {p : Pacer} (built : p.Built)
    (uncapped : ∀ hits, p.capped hits = false) {course : Course} {plan : Plan}
    (planned : p.planned? = some (course, plan)) (unbroken : course.Unbroken plan)
    {phaseStart : Span} (begins : plan.constantAt? = some phaseStart)
    (limited : plan.hold.rate ≠ 0) (hold_uncapped : plan.hold.cap = 0)
    (held_le : plan.hold.rate.toNat ≤ 2 ^ 53) {t : Nat} (exact : course.ExactAt t)
    (begun : phaseStart ≤ wholeSeconds t) {hits : UInt64} (counted : plan.baseHits ≤ hits) :
    (hits < wholePart (course.expectedHits plan (wholeSeconds t)) ↔
        plan.hold.Behind (wholeSeconds t - phaseStart) (hits - plan.baseHits)) ∧
      (p.pace (wholeSeconds t) hits).value =
        ConstantPacer.pace { rate := plan.hold.rate } (wholeSeconds t - phaseStart)
          (hits - plan.baseHits) := by
  have followed : plan = course.plan := built.plan_eq planned
  subst followed
  have steady := exact.steady (built.loadDuration_ne_zero planned) held_le unbroken
  have starts := exact.mem_phase? begins
  have whole := eq_wholeSeconds (exact.phaseStart_whole begins)
  have begun_second : phaseStart.seconds ≤ t := by
    have seconds := Nat.div_le_div_right (c := nanosPerSecond) (Span.le_iff.mp begun)
    exact seconds.trans_eq (seconds_wholeSeconds exact.le_wordMax)
  have agree := exact.behind_iff steady starts begun_second counted
  rw [← whole] at agree
  have fresh : ({ rate := course.plan.hold.rate } : ConstantPacer) = course.plan.hold := by
    rw [← hold_uncapped]
  refine ⟨agree, ?_⟩
  rw [pace_of_planned planned (uncapped hits), fresh]
  exact Course.pace_of_agreement begins begun limited hold_uncapped counted agree

/-- From 1 hit per second up by 1 every 8589934592 seconds, until 2 hits per second are held from
second 17179869184 on.  Second 20000000000 is itself beyond the 64-bit nanoseconds; the hit after
all that are due by then is due half a second later. -/
theorem phase_paced_as_constant_long_period :
    let course : Course :=
      { ramp := ⟨1, 1, .ofSeconds 8589934592, by decide, by decide, by decide⟩
        hold := { rate := 2 } }
    let p : Pacer := .step { course }
    (p.Built ∧ course.Unbroken course.plan ∧ course.ExactAt 20000000000) ∧
      course.plan.constantAt? = some (.ofSeconds 17179869184) ∧
      course.plan.baseHits = 25769803776 ∧
      (p.pace (wholeSeconds 20000000000) 31410065408).value = .after (.ofNanos 500000000) := by
  intro course p
  have made : StepPacer.make 1 1 (.ofSeconds 8589934592) = .ok { course :=
      { ramp := ⟨1, 1, .ofSeconds 8589934592, by decide, by decide, by decide⟩ } } := rfl
  have built : p.Built := (Built.step made).withHold { rate := 2 }
  have planned : p.planned? = some (course, course.plan) := rfl
  have begins : course.plan.constantAt? = some (.ofSeconds 17179869184) := by decide +kernel
  have base : course.plan.baseHits = 25769803776 := by decide +kernel
  have unbroken : course.Unbroken course.plan :=
    Or.inr (Or.inl ⟨_, begins, by decide +kernel⟩)
  have exact : course.ExactAt 20000000000 :=
    { period_whole := by decide +kernel
      duration_whole := fun duration set => nomatch set
      start_le := by decide +kernel
      in_range := by decide +kernel
      hits_le := by decide +kernel }
  have begun : Span.ofSeconds 17179869184 ≤ wholeSeconds 20000000000 := by decide +kernel
  have counted : course.plan.baseHits ≤ 31410065408 := by
    rw [base]
    decide
  have paced := (phase_paced_as_constant built (fun _ => rfl) planned unbroken begins
    (by decide) rfl (by decide) exact begun counted).2
  refine ⟨⟨built, unbroken, exact⟩, begins, base, paced.trans ?_⟩
  rw [base]
  decide +kernel

/-- The period of second 25769803776 begins beyond the 64-bit nanoseconds.  Its beginning is then
taken for the last nanosecond before that, so more hits are expected than are due, and a caller
that is on time is sent on at once where the constant pacer makes it wait. -/
theorem phase_hurried_beyond_range :
    let course : Course :=
      { ramp := ⟨1, 1, .ofSeconds 8589934592, by decide, by decide, by decide⟩
        hold := { rate := 2 } }
    let p : Pacer := .step { course }
    (p.Built ∧ p.planned? = some (course, course.plan)) ∧
      (course.plan.constantAt? = some (.ofSeconds 17179869184) ∧
        course.plan.baseHits = 25769803776 ∧
        course.wholeSchedule.hits 25769803776 = 42949672960) ∧
      (p.pace (.ofSeconds 25769803776) 42949672960).value = .now ∧
      ConstantPacer.pace { rate := 2 } (.ofSeconds 25769803776 - .ofSeconds 17179869184)
        (42949672960 - 25769803776) = .after (.ofNanos 500000000) := by
  intro course p
  have made : StepPacer.make 1 1 (.ofSeconds 8589934592) = .ok { course :=
      { ramp := ⟨1, 1, .ofSeconds 8589934592, by decide, by decide, by decide⟩ } } := rfl
  exact ⟨⟨(Built.step made).withHold { rate := 2 }, rfl⟩, by decide +kernel⟩

end Pacer

end LoadShape.Pacing
