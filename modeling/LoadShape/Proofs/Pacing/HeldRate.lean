import LoadShape.Proofs.Number.Rounded
import LoadShape.Proofs.Pacing.BuiltPacer
import LoadShape.Proofs.Pacing.CourseView

/-!
# Ramps towards a rate that is held

A ramp goes in one direction.  It takes the first period at whose start it is past the rate to
hold as the beginning of its constant phase: until then it is not past that rate, and from then
on it holds it.
-/

namespace LoadShape.Pacing

open LoadShape.Number LoadShape.Time

/-! ## Periods -/

theorem nanos_periodStart (period : Span) (n : Nat) :
    (periodStart period n).nanos = min (period.nanos * n) wordMax :=
  Span.nanos_ofNanos (Nat.lt_of_le_of_lt (Nat.min_le_right _ _) (by decide))

/-- The number of whole periods grows with time. -/
theorem wholePeriods_mono {elapsed later : Span} (le : elapsed ≤ later) (period : Span) :
    wholePeriods elapsed period ≤ wholePeriods later period :=
  saturate_mono (Nat.div_le_div_right (Span.le_iff.mp le))

/-- The periods that have passed when one starts. -/
theorem wholePeriods_of_multiple {elapsed period : Span} {n : Nat} (positive : period.nanos ≠ 0)
    (fits : period.nanos * n ≤ wordMax) (multiple : elapsed.nanos = period.nanos * n) :
    (wholePeriods elapsed period).toNat = n := by
  have few := (Nat.le_mul_of_pos_left n (Nat.pos_of_ne_zero positive)).trans fits
  rw [wholePeriods, toNat_saturate, multiple,
    Nat.mul_div_cancel_left _ (Nat.pos_of_ne_zero positive), Nat.min_eq_left few]

theorem wholePeriods_lt {elapsed period : Span} {n : Nat}
    (before : elapsed.nanos < period.nanos * n) : (wholePeriods elapsed period).toNat < n := by
  rw [wholePeriods, toNat_saturate]
  exact Nat.lt_of_le_of_lt (Nat.min_le_left _ _) (Nat.div_lt_of_lt_mul before)

/-- A period that would start beyond the 64-bit nanoseconds starts in the last one that starts
within them. -/
theorem wholePeriods_periodStart {period : Span} (positive : period.nanos ≠ 0) (n : Nat) :
    (wholePeriods (periodStart period n) period).toNat = min n (wordMax / period.nanos) := by
  have pos := Nat.pos_of_ne_zero positive
  rw [wholePeriods, toNat_saturate, nanos_periodStart]
  rcases Nat.le_total (period.nanos * n) wordMax with fits | late
  · have le : n ≤ wordMax / period.nanos := (Nat.le_div_iff_mul_le pos).mpr (by rwa [Nat.mul_comm])
    rw [Nat.min_eq_left fits, Nat.mul_div_cancel_left n pos, Nat.min_eq_left le,
      Nat.min_eq_left (le.trans (Nat.div_le_self _ _))]
  · rw [Nat.min_eq_right late, Nat.min_eq_left (Nat.div_le_self _ _),
      Nat.min_eq_right (Nat.div_le_of_le_mul late)]

/-! ## The direction of a ramp -/

namespace Ramp

variable {r : Ramp} {m n : Nat} {rate target : Rat}

/-- In the direction of the ramp the rate does not lie beyond the target. -/
def NotPast (r : Ramp) (rate target : Rat) : Prop :=
  if r.rising then rate ≤ target else target ≤ rate

instance (r : Ramp) (rate target : Rat) : Decidable (r.NotPast rate target) :=
  inferInstanceAs (Decidable (if r.rising = true then rate ≤ target else target ≤ rate))

theorem notPast_of_rising (rising : r.rising = true) : r.NotPast rate target ↔ rate ≤ target :=
  iff_of_eq (if_pos rising)

theorem notPast_of_falling (falling : r.rising = false) :
    r.NotPast rate target ↔ target ≤ rate := by
  simp [NotPast, falling]

theorem NotPast.refl (r : Ramp) (rate : Rat) : r.NotPast rate rate := by
  unfold NotPast
  split <;> exact le_refl rate

theorem rateOfPeriods_nonneg (r : Ramp) (n : Nat) : 0 ≤ r.rateOfPeriods n := le_max_left _ _

/-- A ramp does not turn back. -/
theorem rateOfPeriods_notPast (r : Ramp) (le : m ≤ n) :
    r.NotPast (r.rateOfPeriods m) (r.rateOfPeriods n) := by
  have periods : rounded m ≤ rounded n := rounded_mono (by exact_mod_cast le)
  cases direction : r.rising with
  | true =>
      have up : 0 ≤ r.step.toInt := by
        have positive : (0 : Int) < r.step.toInt := by
          simpa [rising, Int64.lt_iff_toInt_lt] using direction
        exact positive.le
      have up_rounded : 0 ≤ rounded r.step.toInt := rounded_nonneg (by exact_mod_cast up)
      rw [notPast_of_rising direction, rateOfPeriods, rateOfPeriods]
      refine max_le_max_left 0 (rounded_mono ?_)
      gcongr
      exact rounded_mono (mul_le_mul_of_nonneg_left periods up_rounded)
  | false =>
      have down : r.step.toInt ≤ 0 := by
        simpa [rising, Int64.lt_iff_toInt_lt] using direction
      have down_rounded : rounded r.step.toInt ≤ 0 :=
        rounded_zero ▸ rounded_mono (by exact_mod_cast down)
      rw [notPast_of_falling direction, rateOfPeriods, rateOfPeriods]
      refine max_le_max_left 0 (rounded_mono ?_)
      gcongr
      exact rounded_mono (mul_le_mul_of_nonpos_left periods down_rounded)

theorem rateAt_notPast (r : Ramp) {elapsed later : Span} (le : elapsed ≤ later) :
    r.NotPast (r.rateAt elapsed) (r.rateAt later) := by
  rw [rateAt_eq, rateAt_eq]
  exact r.rateOfPeriods_notPast (UInt64.le_iff_toNat_le.mp (wholePeriods_mono le r.period))

theorem rateAt_of_multiple {elapsed : Span} (fits : r.period.nanos * n ≤ wordMax)
    (multiple : elapsed.nanos = r.period.nanos * n) : r.rateAt elapsed = r.rateOfPeriods n := by
  rw [rateAt_eq, wholePeriods_of_multiple r.period_ne_zero fits multiple]

theorem rateAt_periodStart (r : Ramp) (n : Nat) :
    r.rateAt (periodStart r.period n) =
      r.rateOfPeriods (min n (wordMax / r.period.nanos)) := by
  rw [rateAt_eq, wholePeriods_periodStart r.period_ne_zero]

end Ramp

/-! ## The crossing -/

/-- A search stops at the first number that has the property. -/
theorem leastFrom?_eq_some {property : Nat → Bool} {count i n : Nat}
    (found : leastFrom? property count i = some n) :
    property n = true ∧ ∀ m, i ≤ m → m < n → property m = false := by
  induction count generalizing i with
  | zero => cases found
  | succ count ih =>
      unfold leastFrom? at found
      split at found
      · next here =>
          cases found
          exact ⟨here, fun m le less => absurd le (Nat.not_le_of_lt less)⟩
      · next missing =>
          obtain ⟨holds, first⟩ := ih found
          refine ⟨holds, fun m le less => ?_⟩
          rcases Nat.eq_or_lt_of_le le with rfl | later
          · exact Bool.eq_false_iff.mpr missing
          · exact first m later less

namespace Course

variable {c : Course} {n : Nat} {phaseStart : Span}

/-- The rate to hold as a rounded number. -/
def target (c : Course) : Rat := rounded c.hold.rate.toNat

theorem pastHold_iff (c : Course) (n : Nat) :
    c.pastHold n = true ↔
      ¬ c.ramp.NotPast (c.ramp.rateAt (periodStart c.ramp.period n)) c.target := by
  unfold pastHold Ramp.NotPast target
  split <;> simp [*]

/-- The crossing is found before the starts of periods leave the 64-bit nanoseconds: the last of
them lies in a period that was searched before. -/
theorem crossing?_fits (found : c.crossing? = some n) : c.ramp.period.nanos * n ≤ wordMax := by
  obtain ⟨past, first⟩ := leastFrom?_eq_some found
  by_contra late
  have last_lt : wordMax / c.ramp.period.nanos < n := Nat.div_lt_of_lt_mul (not_le.mp late)
  have sooner := first _ (Nat.zero_le _) last_lt
  rw [pastHold_iff, Ramp.rateAt_periodStart, Nat.min_eq_right last_lt.le] at past
  rw [← Bool.not_eq_true, pastHold_iff, Ramp.rateAt_periodStart, Nat.min_self] at sooner
  exact sooner past

/-- The crossing is the first period at whose start the ramp is past the rate to hold. -/
theorem crossing?_spec (found : c.crossing? = some n) :
    ¬ c.ramp.NotPast (c.ramp.rateOfPeriods n) c.target ∧
      ∀ m < n, c.ramp.NotPast (c.ramp.rateOfPeriods m) c.target := by
  have fits := crossing?_fits found
  obtain ⟨past, first⟩ := leastFrom?_eq_some found
  have last : n ≤ wordMax / c.ramp.period.nanos :=
    (Nat.le_div_iff_mul_le (Nat.pos_of_ne_zero c.ramp.period_ne_zero)).mpr
      (by rwa [Nat.mul_comm])
  have rate {m : Nat} (le : m ≤ n) :
      c.ramp.rateAt (periodStart c.ramp.period m) = c.ramp.rateOfPeriods m := by
    rw [Ramp.rateAt_periodStart, Nat.min_eq_left (le.trans last)]
  rw [pastHold_iff, rate (Nat.le_refl n)] at past
  refine ⟨past, fun m less => ?_⟩
  have sooner := first m (Nat.zero_le _) less
  rwa [← Bool.not_eq_true, pastHold_iff, not_not, rate less.le] at sooner

/-- Without a load duration the constant phase begins with the period of the crossing, which is
not the first one. -/
theorem constantAt?_eq_some (timeless : c.loadDuration? = none)
    (begins : c.constantAt? = some phaseStart) :
    ∃ n, 0 < n ∧ phaseStart.nanos = c.ramp.period.nanos * n ∧
      c.ramp.period.nanos * n ≤ wordMax ∧ c.crossing? = some n := by
  unfold constantAt? at begins
  rw [timeless] at begins
  simp only at begins
  split at begins
  · cases begins
  · obtain ⟨n, found, starts⟩ := Option.bind_eq_some_iff.mp begins
    have fits := crossing?_fits found
    have nanos := nanos_periodStart c.ramp.period n
    rw [Nat.min_eq_left fits] at nanos
    unfold Span.nonzero? at starts
    split at starts
    · cases starts
    · next nonzero =>
        cases starts
        refine ⟨n, Nat.pos_of_ne_zero fun first => nonzero ?_, nanos, fits, found⟩
        rw [nanos, first, Nat.mul_zero]

/-- A load duration of some time gives the constant phase some time before it. -/
theorem phaseStart_ne_zero (timed : c.loadDuration? ≠ some .zero)
    (begins : c.constantAt? = some phaseStart) : phaseStart.nanos ≠ 0 := by
  cases set : c.loadDuration? with
  | some duration =>
      intro zero
      simp only [constantAt?, set, Option.some.injEq] at begins
      exact timed (set.trans (congrArg some (begins.trans (Span.ext zero))))
  | none =>
      obtain ⟨n, positive, nanos, -, -⟩ := constantAt?_eq_some set begins
      rw [nanos]
      exact Nat.mul_ne_zero c.ramp.period_ne_zero positive.ne'

/-- Without a load duration the rate that is held is the one that is set. -/
theorem heldPacer_of_timeless (timeless : c.loadDuration? = none) : c.heldPacer = c.hold := by
  unfold heldPacer
  rw [timeless]

theorem rate_nonneg (c : Course) (plan : Plan) (t : Span) : 0 ≤ c.rate plan t := by
  have ramp : 0 ≤ c.ramp.rateAt t := by
    rw [Ramp.rateAt_eq]
    exact c.ramp.rateOfPeriods_nonneg _
  have held : 0 ≤ rounded plan.hold.rate.toNat := rounded_nonneg (Nat.cast_nonneg _)
  unfold rate rateWith
  split
  · split
    · exact held
    · exact ramp
  · exact ramp

/-- Before the crossing the rate is not past the one to hold. -/
theorem rate_before_phase (timeless : c.loadDuration? = none)
    (begins : c.constantAt? = some phaseStart) {t : Span} (before : t < phaseStart) :
    c.ramp.NotPast (c.rate c.plan t) c.target := by
  obtain ⟨n, -, nanos, -, found⟩ := constantAt?_eq_some timeless begins
  rw [rate_on_ramp (onRamp_of_lt begins before), Ramp.rateAt_eq]
  exact (crossing?_spec found).2 _ (wholePeriods_lt (nanos ▸ Span.lt_iff.mp before))

theorem rate_from_phase (timeless : c.loadDuration? = none)
    (begins : c.constantAt? = some phaseStart) {t : Span} (begun : phaseStart ≤ t) :
    c.rate c.plan t = c.target := by
  rw [rate_in_phase begins begun, plan_hold, heldPacer_of_timeless timeless]
  rfl

/-- A ramp that is not past the rate of its constant phase before that begins does not turn
back. -/
theorem rate_notPast_of_held {plan : Plan} (begins : plan.constantAt? = some phaseStart)
    (before : ∀ t < phaseStart,
      c.ramp.NotPast (c.ramp.rateAt t) (rounded plan.hold.rate.toNat))
    {t later : Span} (le : t ≤ later) : c.ramp.NotPast (c.rate plan t) (c.rate plan later) := by
  by_cases begun : phaseStart ≤ t
  · have begun_later : phaseStart ≤ later := Nat.le_trans (Span.le_iff.mp begun) (Span.le_iff.mp le)
    rw [rate_in_phase begins begun, rate_in_phase begins begun_later]
    exact .refl _ _
  · have early : t < phaseStart := Nat.lt_of_not_le begun
    rw [rate_on_ramp (onRamp_of_lt begins early)]
    by_cases begun_later : phaseStart ≤ later
    · rw [rate_in_phase begins begun_later]
      exact before t early
    · rw [rate_on_ramp (onRamp_of_lt begins (Nat.lt_of_not_le begun_later))]
      exact c.ramp.rateAt_notPast le

/-- The rates follow the direction of the ramp. -/
theorem rate_notPast (timeless : c.loadDuration? = none)
    (begins : c.constantAt? = some phaseStart) {t later : Span} (le : t ≤ later) :
    c.ramp.NotPast (c.rate c.plan t) (c.rate c.plan later) := by
  refine rate_notPast_of_held begins (fun sooner early => ?_) le
  have not_past := rate_before_phase timeless begins early
  rw [rate_on_ramp (onRamp_of_lt begins early)] at not_past
  rw [plan_hold, heldPacer_of_timeless timeless]
  exact not_past

end Course

/-! ## Pacers -/

namespace Pacer

/-- A ramp that is given a rate to hold and no load duration begins its constant phase with the
first period at whose start it is past that rate, which is not the first period of all.  Before
that the rate is never past the one to hold, and from then on it is that one.  It never turns
back, and it is never negative. -/
theorem holds_rate_from_crossing {p : Pacer} (built : p.Built) {course : Course} {plan : Plan}
    (planned : p.planned? = some (course, plan))
    (timeless : course.loadDuration? = none) {phaseStart : Span}
    (begins : plan.constantAt? = some phaseStart) :
    (∃ k, 1 ≤ k ∧ phaseStart.nanos = k * course.ramp.period.nanos ∧
        ¬ course.ramp.NotPast (course.ramp.rateAt (.ofNanos (k * course.ramp.period.nanos)))
          (rounded course.hold.rate.toNat) ∧
        ∀ j < k, course.ramp.NotPast
          (course.ramp.rateAt (.ofNanos (j * course.ramp.period.nanos)))
          (rounded course.hold.rate.toNat)) ∧
      (∀ t < phaseStart, course.ramp.NotPast (p.rate t).value (rounded course.hold.rate.toNat)) ∧
      (∀ t, phaseStart ≤ t → (p.rate t).value = rounded course.hold.rate.toNat) ∧
      (∀ t later, t ≤ later → course.ramp.NotPast (p.rate t).value (p.rate later).value) ∧
      (∀ t, 0 ≤ (p.rate t).value) ∧
      ∀ l, p = .linear l → course.ramp.period = .ofSeconds 1 := by
  have followed : plan = course.plan := built.plan_eq planned
  subst followed
  simp only [rate_of_planned planned]
  obtain ⟨n, positive, nanos, fits, found⟩ := Course.constantAt?_eq_some timeless begins
  obtain ⟨past, first⟩ := Course.crossing?_spec found
  have rate {k : Nat} (le : k ≤ n) :
      course.ramp.rateAt (.ofNanos (k * course.ramp.period.nanos)) =
        course.ramp.rateOfPeriods k := by
    have fits_k := (Nat.mul_le_mul_left course.ramp.period.nanos le).trans fits
    refine Ramp.rateAt_of_multiple fits_k ?_
    rw [Nat.mul_comm]
    exact Span.nanos_ofNanos (Nat.lt_of_le_of_lt fits_k (by decide))
  refine ⟨⟨n, positive, nanos.trans (Nat.mul_comm _ _), ?_, fun j less => ?_⟩,
    fun t before => Course.rate_before_phase timeless begins before,
    fun t begun => Course.rate_from_phase timeless begins begun,
    fun t later le => Course.rate_notPast timeless begins le,
    fun t => course.rate_nonneg _ t, ?_⟩
  · rw [rate (Nat.le_refl n)]
    exact past
  · rw [rate less.le]
    exact first j less
  · rintro l rfl
    exact built.period_of_linear planned

/-- A ramp from 20 hits per second down by 7 every 4 seconds would go below 5 after 12 seconds. -/
theorem holds_rate_from_crossing_falling :
    let course : Course :=
      { ramp := ⟨20, -7, .ofSeconds 4, by decide, by decide, by decide⟩
        hold := { rate := 5 } }
    let p : Pacer := .step { course }
    p.Built ∧ course.loadDuration? = none ∧
      p.planned?.map (·.2.constantAt?) = some (some (.ofSeconds 12)) ∧
      ¬ course.ramp.NotPast (course.ramp.rateAt (.ofSeconds 12)) (rounded (5 : UInt64).toNat) ∧
      course.ramp.NotPast (p.rate (.ofNanos 11999999999)).value (rounded (5 : UInt64).toNat) ∧
      (p.rate (.ofSeconds 12)).value = rounded (5 : UInt64).toNat := by
  intro course p
  have made : StepPacer.make 20 (-7) (.ofSeconds 4) = .ok { course :=
      { ramp := ⟨20, -7, .ofSeconds 4, by decide, by decide, by decide⟩ } } := rfl
  have built : p.Built := (Built.step made).withHold { rate := 5 }
  have planned : p.planned? = some (course, course.plan) := rfl
  have begins : course.plan.constantAt? = some (.ofSeconds 12) := by decide +kernel
  obtain ⟨⟨k, -, starts, past, -⟩, before, from_phase, -⟩ :=
    holds_rate_from_crossing built planned rfl begins
  have third : k = 3 := by
    have phase_nanos : (Span.ofSeconds 12).nanos = 12000000000 := by decide +kernel
    have period_nanos : course.ramp.period.nanos = 4000000000 := by decide +kernel
    rw [phase_nanos, period_nanos] at starts
    omega
  have instant : Span.ofNanos (k * course.ramp.period.nanos) = .ofSeconds 12 := by
    rw [third]
    decide +kernel
  rw [instant] at past
  have sooner : Span.ofNanos 11999999999 < .ofSeconds 12 := by decide +kernel
  exact ⟨built, rfl, congrArg some begins, past, before _ sooner, from_phase _ (Nat.le_refl _)⟩

end Pacer

end LoadShape.Pacing
