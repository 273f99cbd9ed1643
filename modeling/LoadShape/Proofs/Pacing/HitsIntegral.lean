import LoadShape.Proofs.Pacing.WholeSeconds
import Mathlib.MeasureTheory.Integral.IntervalIntegral.Basic

/-!
# The hits due as an integral

The hits that are due by a whole second are the integral of the rate up to it, unless the
constant phase breaks a period off at another rate than the ramp has reached.
-/

namespace LoadShape.Pacing

open LoadShape.Number LoadShape.Time

open MeasureTheory

/-! ## Integrals over whole seconds -/

/-- The integral of a function that is constant in every second is the sum of its values. -/
theorem integral_of_seconds {f : ℝ → ℝ} {v : ℕ → ℝ} {t : ℕ}
    (steady : ∀ s < t, ∀ x ∈ Set.Ioo (s : ℝ) (s + 1), f x = v s) :
    ∫ x in (0 : ℝ)..t, f x = ∑ s ∈ Finset.range t, v s := by
  have ends (s : ℕ) : (s : ℝ) ≤ ((s + 1 : ℕ) : ℝ) := by exact_mod_cast Nat.le_succ s
  have constant : ∀ s < t, Set.EqOn (fun _ => v s) f (Set.Ioo (s : ℝ) (s + 1 : ℕ)) := by
    intro s less x inside
    rw [Nat.cast_succ] at inside
    exact (steady s less x inside).symm
  have integrable : ∀ s < t, IntervalIntegrable f volume (s : ℝ) (s + 1 : ℕ) := by
    intro s less
    have uniform : IntervalIntegrable (fun _ => v s) volume (s : ℝ) (s + 1 : ℕ) :=
      intervalIntegrable_const
    refine uniform.congr_uIoo ?_
    rw [Set.uIoo_of_le (ends s)]
    exact constant s less
  have seconds := intervalIntegral.sum_integral_adjacent_intervals integrable
  rw [Nat.cast_zero] at seconds
  rw [← seconds]
  refine Finset.sum_congr rfl fun s inside => ?_
  rw [← intervalIntegral.integral_congr_Ioo_of_le (ends s)
    (constant s (Finset.mem_range.mp inside))]
  simp

/-- The last nanosecond at the real time `x`, in seconds. -/
noncomputable def instant (x : ℝ) : Span := .ofNanos ⌊x * nanosPerSecond⌋₊

theorem seconds_instant {s : ℕ} (small : s ≤ wordMax) {x : ℝ}
    (inside : x ∈ Set.Ioo (s : ℝ) (s + 1)) : (instant x).seconds = s := by
  obtain ⟨above, below⟩ := inside
  have positive : (0 : ℝ) < nanosPerSecond := by norm_num [nanosPerSecond]
  have low : s * nanosPerSecond ≤ ⌊x * nanosPerSecond⌋₊ := by
    refine Nat.le_floor ?_
    push_cast
    gcongr
  have high : ⌊x * nanosPerSecond⌋₊ < (s + 1) * nanosPerSecond := by
    refine (Nat.floor_lt' (Nat.mul_ne_zero (Nat.succ_ne_zero s) (by decide))).mpr ?_
    push_cast
    gcongr
  have limit : (s + 1) * nanosPerSecond ≤ spanLimit :=
    Nat.mul_le_mul_right _ (Nat.succ_le_succ small)
  rw [Span.seconds, instant, Span.nanos_ofNanos (Nat.lt_of_lt_of_le high limit)]
  exact Nat.div_eq_of_lt_le low high

namespace Course

variable {c : Course} {plan : Plan} {t phase : Nat}

/-- The exact integral of the rate from the beginning to the real time `t`, in seconds. -/
noncomputable def integral (c : Course) (plan : Plan) (t : ℝ) : ℝ :=
  ∫ x in (0 : ℝ)..t, (c.rate plan (instant x) : ℝ)

/-- All times are whole seconds, second `t` lies within the 64-bit nanoseconds, and the rates,
the change of the rate and the integral take no more than 53 bits. -/
structure Bounded (c : Course) (plan : Plan) (t : Nat) : Prop extends c.WholeTimes where
  in_range : t * nanosPerSecond < 2 ^ 64
  held_le : plan.hold.rate.toNat ≤ 2 ^ 53
  change_le : c.ramp.step.toInt.natAbs * (t / c.ramp.period.seconds) ≤ 2 ^ 53
  integral_le : c.integral plan t ≤ 2 ^ 53

namespace WholeTimes

variable (times : c.WholeTimes)
include times

/-- The rate is the same throughout a second. -/
theorem rate_of_second (elapsed : Span) :
    c.rate c.plan elapsed = c.rate c.plan (wholeSeconds elapsed.seconds) := by
  have nanos := nanos_wholeSeconds elapsed.seconds_le
  have ramp : c.ramp.rateAt elapsed = c.ramp.rateAt (wholeSeconds elapsed.seconds) := by
    have periods : elapsed.nanos / c.ramp.period.nanos =
        (wholeSeconds elapsed.seconds).nanos / c.ramp.period.nanos := by
      rw [nanos, times.period_nanos, Nat.mul_div_mul_right _ _ (by decide), Span.seconds,
        Nat.div_div_eq_div_mul, Nat.mul_comm]
    simp only [Ramp.rateAt_eq, wholePeriods, periods]
  unfold rate rateWith
  cases begins : c.plan.constantAt? with
  | none => exact ramp
  | some phaseStart =>
      have begun : phaseStart ≤ elapsed ↔ phaseStart ≤ wholeSeconds elapsed.seconds := by
        rw [Span.le_iff, Span.le_iff, nanos, nanos_of_whole (times.phaseStart_whole begins),
          ← Nat.le_div_iff_mul_le (by decide), Nat.mul_le_mul_right_iff (by decide)]
        exact Iff.rfl
      simp only [begun, ramp]

/-- The integral of the rate is the sum of the rates of the whole seconds. -/
theorem integral_eq_sum (small : t ≤ wordMax) :
    c.integral c.plan t =
      ((∑ s ∈ Finset.range t, c.rate c.plan (wholeSeconds s) : Rat) : ℝ) := by
  rw [integral, integral_of_seconds (v := fun s => (c.rate c.plan (wholeSeconds s) : ℝ))]
  · push_cast
    rfl
  · intro s less x inside
    rw [times.rate_of_second, seconds_instant (less.le.trans small) inside]

theorem rate_start (early : ¬ c.wholeSchedule.Begun 0) :
    c.rate c.plan (wholeSeconds 0) = c.wholeSchedule.start := by
  have rate := WholeSchedule.rate_of_not_begun early
  rw [Nat.zero_div, WholeSchedule.rampRate_zero] at rate
  rw [← rate]
  exact times.rateWith_eq (Nat.zero_le _) (rate.trans_le times.start_le)

/-- A rate of the ramp that does not fit 53 bits is not rounded below them. -/
theorem le_rate_of_large (small : t ≤ wordMax) (early : ¬ c.wholeSchedule.Begun t)
    (change_le : c.ramp.step.toInt.natAbs * (t / c.wholeSchedule.period) ≤ 2 ^ 53)
    (large : 2 ^ 53 < c.wholeSchedule.rampRate (t / c.wholeSchedule.period)) :
    2 ^ 53 ≤ c.rate c.plan (wholeSeconds t) := by
  have change_abs : |c.ramp.step.toInt * (t / c.wholeSchedule.period : Nat)| ≤ 2 ^ 53 := by
    rw [Int.abs_eq_natAbs, Int.natAbs_mul, Int.natAbs_natCast]
    exact_mod_cast change_le
  refine (Ramp.le_rateOfPeriods times.start_le change_abs ?_).trans_eq
    (times.rateWith_of_not_begun small early).symm
  exact (Int.lt_toNat.mp large).le

end WholeTimes

namespace Bounded

variable (bounded : c.Bounded c.plan t)
include bounded

theorem nanos_le : t * nanosPerSecond ≤ wordMax := Nat.le_of_lt_succ bounded.in_range

theorem small : t ≤ 2 ^ 53 := exact_of_in_range bounded.nanos_le

/-- A rate that does not fit 53 bits would make the integral too large: it is rounded to no less
than `2 ^ 53`, and there was a second before it. -/
theorem rate_le {s : Nat} (less : s < t) : c.wholeSchedule.rate s ≤ 2 ^ 53 := by
  have times := bounded.toWholeTimes
  have fits := le_wordMax_of_exact bounded.small
  by_contra large
  have early : ¬ c.wholeSchedule.Begun s := by
    intro begun
    rw [WholeSchedule.rate_of_begun begun] at large
    exact large bounded.held_le
  rw [WholeSchedule.rate_of_not_begun early] at large
  have some_periods : 0 < s / c.wholeSchedule.period := by
    by_contra first
    rw [Nat.eq_zero_of_not_pos first, WholeSchedule.rampRate_zero] at large
    exact large times.start_le
  have change_le := (Nat.mul_le_mul_left c.ramp.step.toInt.natAbs
    (Nat.div_le_div_right (c := c.ramp.period.seconds) less.le)).trans bounded.change_le
  have large_rate :=
    times.le_rate_of_large (less.le.trans fits) early change_le (not_le.mp large)
  have first_rate := times.rate_start fun begun => early (begun.mono (Nat.zero_le s))
  have later : 0 ≠ s := by
    rintro rfl
    rw [Nat.zero_div] at some_periods
    exact Nat.lt_irrefl 0 some_periods
  have two := Finset.add_le_sum (f := fun s => c.rate c.plan (wholeSeconds s))
    (fun s _ => c.rate_nonneg c.plan (wholeSeconds s))
    (Finset.mem_range.mpr (Nat.zero_lt_of_lt less)) (Finset.mem_range.mpr less) later
  have total := bounded.integral_le
  rw [times.integral_eq_sum fits] at total
  have total_rat : ∑ s ∈ Finset.range t, c.rate c.plan (wholeSeconds s) ≤ 2 ^ 53 := by
    exact_mod_cast total
  have start_pos : (1 : Rat) ≤ c.wholeSchedule.start := by exact_mod_cast c.start_pos
  rw [first_rate] at two
  linarith

/-- The integral is the sum of the rates in whole numbers. -/
theorem integral_eq :
    c.integral c.plan t = (∑ s ∈ Finset.range t, c.wholeSchedule.rate s : Nat) := by
  have rates : ∑ s ∈ Finset.range t, c.rate c.plan (wholeSeconds s) =
      ∑ s ∈ Finset.range t, (c.wholeSchedule.rate s : Rat) :=
    Finset.sum_congr rfl fun s inside => by
      have less := Finset.mem_range.mp inside
      exact bounded.rateWith_eq (less.le.trans bounded.small)
        (bounded.rate_le less)
  rw [bounded.integral_eq_sum (le_wordMax_of_exact bounded.small), rates]
  push_cast
  rfl

variable (steady : c.wholeSchedule.Steady)
include steady

/-- Until second `t` the hits due are exact. -/
theorem exactAt {s : Nat} (le : s ≤ t) : c.ExactAt s := by
  have total := bounded.integral_le
  rw [bounded.integral_eq, ← steady.hits_eq_sum bounded.period_pos] at total
  have exact : c.ExactAt t :=
    { toWholeTimes := bounded.toWholeTimes
      in_range := (Nat.mul_le_mul_right _ (Nat.div_mul_le_self _ _)).trans bounded.nanos_le
      hits_le := by exact_mod_cast total }
  exact exact.mono steady le

end Bounded

end Course

/-! ## Pacers -/

namespace Pacer

/-- The hits that a ramp expects by a whole second are the exact integral of its rate, the
constant phase included, unless that phase breaks a period off at another rate than the ramp
has reached.  They do not become fewer, and those due before the constant phase are the ones
that are expected when it begins. -/
theorem expectedHits_is_integral {p : Pacer} (built : p.Built) {course : Course} {plan : Plan}
    (planned : p.planned? = some (course, plan)) (unbroken : course.Unbroken plan) {t : Nat}
    (bounded : course.Bounded plan t) :
    (course.expectedHits plan (wholeSeconds t) : ℝ) = course.integral plan t ∧
      (∀ sooner ≤ t, course.expectedHits plan (wholeSeconds sooner) ≤
        course.expectedHits plan (wholeSeconds t)) ∧
      ∀ phaseStart, plan.constantAt? = some phaseStart →
        course.Bounded plan phaseStart.seconds →
          (plan.baseHits.toNat : Rat) = course.expectedHits plan phaseStart := by
  have followed : plan = course.plan := built.plan_eq planned
  subst followed
  have timed := built.loadDuration_ne_zero planned
  have steady := bounded.steady timed bounded.held_le unbroken
  have due {s : Nat} (le : s ≤ t) := (bounded.exactAt steady le).expectedHits_eq
  refine ⟨?_, fun sooner le => ?_, fun phaseStart begins bounded_phase => ?_⟩
  · rw [due (Nat.le_refl t), bounded.integral_eq, steady.hits_eq_sum bounded.period_pos]
    push_cast
    rfl
  · rw [due le, due (Nat.le_refl t)]
    exact_mod_cast steady.hits_mono bounded.period_pos le
  · have exact := bounded_phase.exactAt steady (Nat.le_refl _)
    have due_phase := exact.expectedHits_eq
    rw [← eq_wholeSeconds (exact.phaseStart_whole begins)] at due_phase
    rw [exact.baseHits_eq (exact.mem_phase? begins), due_phase]

/-- From 5 hits per second up by 5 every 4 seconds, for 10 seconds: the 15 hits per second that
are reached in the middle of a period are held, and 135 hits are due by second 13. -/
theorem expectedHits_is_integral_reached_rate :
    let course : Course :=
      { ramp := ⟨5, 5, .ofSeconds 4, by decide, by decide, by decide⟩
        loadDuration? := some (.ofSeconds 10) }
    let p : Pacer := .step { course }
    p.Built ∧ course.Unbroken course.plan ∧
      (course.Bounded course.plan 10 ∧ course.Bounded course.plan 13) ∧
      course.plan.baseHits = 90 ∧ course.expectedHits course.plan (.ofSeconds 10) = 90 ∧
      course.integral course.plan 13 = 135 := by
  intro course p
  have made : StepPacer.make 5 5 (.ofSeconds 4) = .ok { course :=
      { ramp := ⟨5, 5, .ofSeconds 4, by decide, by decide, by decide⟩ } } := rfl
  have built : p.Built := (Built.step made).withLoadDuration (.ofSeconds 10)
  have planned : p.planned? = some (course, course.plan) := rfl
  have unbroken : course.Unbroken course.plan := Or.inr (Or.inr rfl)
  have times : course.WholeTimes := by
    refine ⟨by decide, fun duration set => ?_, by decide⟩
    cases set
    decide
  have bounded : ∀ t ∈ [10, 13], course.Bounded course.plan t := by
    intro t listed
    have small : t ≤ 13 := (by decide : ∀ t ∈ [10, 13], t ≤ 13) t listed
    refine ⟨times, ?_, by decide +kernel, ?_, ?_⟩
    · exact Nat.lt_of_le_of_lt (Nat.mul_le_mul_right _ small) (by decide)
    · exact (by decide +kernel : ∀ t ∈ [10, 13],
        course.ramp.step.toInt.natAbs * (t / course.ramp.period.seconds) ≤ 2 ^ 53) t listed
    · have total : ∑ s ∈ Finset.range t, course.rate course.plan (wholeSeconds s) ≤ 2 ^ 53 :=
        (by decide +kernel : ∀ t ∈ [10, 13],
          ∑ s ∈ Finset.range t, course.rate course.plan (wholeSeconds s) ≤ 2 ^ 53) t listed
      rw [times.integral_eq_sum (small.trans (by decide))]
      exact_mod_cast total
  have bounded_phase := bounded 10 (by decide)
  have bounded_later := bounded 13 (by decide)
  obtain ⟨integral, -, base⟩ := expectedHits_is_integral built planned unbroken bounded_later
  have due : course.expectedHits course.plan (wholeSeconds 13) = 135 := by decide +kernel
  have base_hits : course.plan.baseHits = 90 := by decide +kernel
  have begins : course.plan.constantAt? = some (.ofSeconds 10) := rfl
  have due_phase := base _ begins bounded_phase
  rw [base_hits] at due_phase
  rw [due] at integral
  exact ⟨built, unbroken, ⟨bounded_phase, bounded_later⟩, base_hits, due_phase.symm,
    by exact_mod_cast integral.symm⟩

end Pacer

end LoadShape.Pacing
