import LoadShape.Proofs.Pacing.ConstantPhase
import LoadShape.Proofs.Pacing.StopFinal

/-!
# The cap of the rate that is held

The pacer of the constant phase counts its hits from the beginning of the phase and stops at its
cap.  It is only asked by callers that are not behind the ramp, so a caller that is behind goes on
past the cap.
-/

namespace LoadShape.Pacing

open LoadShape.Number LoadShape.Time

namespace Course

variable {c : Course} {plan : Plan} {elapsed phaseStart : Span} {hits : UInt64} {t : Nat}

/-- The hits of the phase reach the cap. -/
theorem held_capped (cap_pos : 0 < plan.hold.cap)
    (reached : plan.baseHits.toNat + plan.hold.cap.toNat ≤ hits.toNat) :
    ConstantPacer.capped plan.hold.cap (saturate (hits.toNat - plan.baseHits.toNat)) = true := by
  have counted : hits.toNat - plan.baseHits.toNat ≤ wordMax :=
    (Nat.sub_le _ _).trans (toNat_le_wordMax hits)
  have le : plan.hold.cap ≤ saturate (hits.toNat - plan.baseHits.toNat) := by
    rw [UInt64.le_iff_toNat_le, toNat_saturate, Nat.min_eq_left counted]
    omega
  rw [ConstantPacer.capped, Bool.and_eq_true]
  exact ⟨decide_eq_true cap_pos, decide_eq_true le⟩

/-- With the cap reached, the ramp still sends a caller on that is behind. -/
theorem pace_past_held_cap (begins : plan.constantAt? = some phaseStart)
    (begun : phaseStart ≤ elapsed) (cap_pos : 0 < plan.hold.cap)
    (reached : plan.baseHits.toNat + plan.hold.cap.toNat ≤ hits.toNat) :
    c.pace plan elapsed hits =
      if hits < wholePart (c.expectedHits plan elapsed) then .now else .stop := by
  by_cases behind : hits < wholePart (c.expectedHits plan elapsed)
  · rw [pace_of_behind behind, if_pos behind]
  · rw [pace_in_phase begins begun behind, if_neg behind,
      ConstantPacer.pace_of_capped (held_capped cap_pos reached), ite_self]

/-- Where the arithmetic is exact, more hits than the cap are expected as soon as the held rate
has made more than the cap due since the beginning of the phase. -/
theorem ExactAt.expected_le_cap_iff (exact : c.ExactAt t) (steady : c.wholeSchedule.Steady)
    (begins : c.plan.constantAt? = some phaseStart) (begun : phaseStart ≤ wholeSeconds t) :
    (wholePart (c.expectedHits c.plan (wholeSeconds t))).toNat ≤
        c.plan.baseHits.toNat + c.plan.hold.cap.toNat ↔
      c.plan.hold.rate.toNat * (t - phaseStart.seconds) ≤ c.plan.hold.cap.toNat := by
  rw [exact.wholePart_in_phase steady (exact.mem_phase? begins)
    (seconds_le_of_le exact.le_wordMax begun)]
  exact Nat.add_le_add_iff_left

end Course

namespace Pacer

/-- No caller goes on with as many hits in the constant phase as the cap of the pacer that is
held. -/
def HonoursHeldCap (p : Pacer) (plan : Plan) (elapsed : Span) : Prop :=
  ∀ hits, plan.baseHits.toNat + plan.hold.cap.toNat ≤ hits.toNat →
    (p.pace elapsed hits).value = .stop

/-- In the constant phase a caller whose hits reach the cap of the pacer that is held is told to
stop, unless it is behind the ramp and not stopped by the ramp's own cap: then it is sent on at
once.  So the cap is honoured exactly as long as no more hits are expected than the ramp and the
cap come to, or if the ramp's own cap is reached by then.  In exact whole seconds, that is as
long as the held rate has made no more hits due than the cap since the beginning of the phase. -/
theorem honoursHeldCap_iff {p : Pacer} {course : Course} {plan : Plan}
    (planned : p.planned? = some (course, plan)) {phaseStart elapsed : Span}
    (begins : plan.constantAt? = some phaseStart) (begun : phaseStart ≤ elapsed)
    (cap_pos : 0 < plan.hold.cap) :
    let reached := plan.baseHits.toNat + plan.hold.cap.toNat
    let expected := wholePart (course.expectedHits plan elapsed)
    (∀ hits, reached ≤ hits.toNat → (p.pace elapsed hits).value =
        if p.capped hits = false ∧ hits < expected then .now else .stop) ∧
      (p.HonoursHeldCap plan elapsed ↔
        expected.toNat ≤ reached ∨ p.capped (saturate reached) = true) ∧
      (p.Built → ∀ t, elapsed = wholeSeconds t → course.ExactAt t → course.Unbroken plan →
        plan.hold.rate.toNat ≤ 2 ^ 53 →
          (p.HonoursHeldCap plan elapsed ↔
            plan.hold.rate.toNat * (t - phaseStart.seconds) ≤ plan.hold.cap.toNat ∨
              p.capped (saturate reached) = true)) := by
  intro reached expected
  have answers : ∀ hits, reached ≤ hits.toNat → (p.pace elapsed hits).value =
      if p.capped hits = false ∧ hits < expected then .now else .stop := by
    intro hits le
    cases below : p.capped hits with
    | true => rw [pace_of_capped below, if_neg fun goesOn => Bool.noConfusion goesOn.1]
    | false =>
        rw [pace_of_planned planned below, Course.pace_past_held_cap begins begun cap_pos le]
        exact if_congr (and_iff_right rfl).symm rfl rfl
  have honoured : p.HonoursHeldCap plan elapsed ↔
      expected.toNat ≤ reached ∨ p.capped (saturate reached) = true := by
    constructor
    · intro honours
      by_contra goesOn
      rw [not_or, not_le, Bool.not_eq_true] at goesOn
      obtain ⟨more, below⟩ := goesOn
      have count : (saturate reached).toNat = reached := by
        rw [toNat_saturate]
        exact Nat.min_eq_left (more.le.trans (toNat_le_wordMax expected))
      have behind : saturate reached < expected := by
        rw [UInt64.lt_iff_toNat_lt, count]
        exact more
      have stopped := honours (saturate reached) count.ge
      rw [answers _ count.ge, if_pos ⟨below, behind⟩] at stopped
      cases stopped
    · intro reasons hits le
      rw [answers hits le, if_neg]
      rintro ⟨below, behind⟩
      rcases reasons with few | capped
      · have less := UInt64.lt_iff_toNat_lt.mp behind
        omega
      · have le_hits : saturate reached ≤ hits := by
          rw [UInt64.le_iff_toNat_le, toNat_saturate]
          exact (Nat.min_le_left _ _).trans le
        rw [capped_mono le_hits capped] at below
        cases below
  refine ⟨answers, honoured, ?_⟩
  rintro built t rfl exact unbroken held_le
  have followed : plan = course.plan := built.plan_eq planned
  subst followed
  have steady := exact.steady (built.loadDuration_ne_zero planned) held_le unbroken
  rw [honoured]
  exact or_congr_left (exact.expected_le_cap_iff steady begins begun)

/-- From one hit per second up by one every second, until five hits per second are held from the
fifth second on, with a cap of three.  Fifteen hits are due by then; a second later twenty are,
and a caller that has sent eighteen is not stopped. -/
theorem honoursHeldCap_iff_three :
    let course : Course :=
      { ramp := ⟨1, 1, .ofSeconds 1, by decide, by decide, by decide⟩
        hold := { rate := 5, cap := 3 } }
    let p : Pacer := .step { course }
    (p.Built ∧ course.plan.constantAt? = some (.ofSeconds 5)) ∧
      p.HonoursHeldCap course.plan (wholeSeconds 5) ∧
      ¬ p.HonoursHeldCap course.plan (wholeSeconds 6) := by
  intro course p
  have made : StepPacer.make 1 1 (.ofSeconds 1) = .ok { course :=
      { ramp := ⟨1, 1, .ofSeconds 1, by decide, by decide, by decide⟩ } } := rfl
  have built : p.Built := (Built.step made).withHold { rate := 5, cap := 3 }
  have planned : p.planned? = some (course, course.plan) := rfl
  have begins : course.plan.constantAt? = some (.ofSeconds 5) := by decide +kernel
  have unbroken : course.Unbroken course.plan :=
    Or.inr (Or.inl ⟨_, begins, by decide +kernel⟩)
  have times : course.WholeTimes :=
    ⟨by decide +kernel, fun duration set => (nomatch set), by decide +kernel⟩
  have at_five : course.ExactAt 5 := ⟨times, by decide +kernel, by decide +kernel⟩
  have at_six : course.ExactAt 6 := ⟨times, by decide +kernel, by decide +kernel⟩
  have begun : Span.ofSeconds 5 ≤ wholeSeconds 5 := by decide +kernel
  have begun_before : Span.ofSeconds 5 ≤ wholeSeconds 6 := by decide +kernel
  have honoured := (honoursHeldCap_iff planned begins begun (by decide)).2.2 built 5 rfl at_five
    unbroken (by decide)
  have passed := (honoursHeldCap_iff planned begins begun_before (by decide)).2.2 built 6 rfl
    at_six unbroken (by decide)
  refine ⟨⟨built, begins⟩, honoured.mpr (Or.inl (by decide)), ?_⟩
  rw [passed, not_or]
  exact ⟨by decide, by decide⟩

/-- A caller with all three hits of the cap, and late, is told to send another one. -/
theorem sent_past_held_cap :
    let course : Course :=
      { ramp := ⟨1, 1, .ofSeconds 1, by decide, by decide, by decide⟩
        hold := { rate := 5, cap := 3 } }
    let p : Pacer := .step { course }
    p.planned? = some (course, course.plan) ∧
      course.plan.constantAt? = some (.ofSeconds 5) ∧
      course.plan.baseHits.toNat + course.plan.hold.cap.toNat = 18 ∧
      (p.pace (.ofSeconds 100) 18).value = .now := by
  decide +kernel

end Pacer

end LoadShape.Pacing
