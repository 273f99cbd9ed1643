import LoadShape.Proofs.Pacing.HeldRate
import LoadShape.Proofs.Pacing.WholeSchedule

/-!
# Ramps at whole seconds

If the times of a course are whole seconds and its rates and hits stay within 53 bits, then
no operation is rounded, and the hits due are those of a schedule in whole numbers.
-/

namespace LoadShape.Pacing

open LoadShape.Number LoadShape.Time

/-! ## Whole seconds -/

/-- The span of `t` seconds. -/
def wholeSeconds (t : Nat) : Span := .ofNanos (t * nanosPerSecond)

variable {t later phase n horizon : Nat}

theorem nanos_wholeSeconds (small : t ≤ wordMax) :
    (wholeSeconds t).nanos = t * nanosPerSecond :=
  Span.nanos_ofNanos (Nat.mul_lt_mul_of_pos_right (Nat.lt_succ_of_le small) (by decide))

theorem seconds_wholeSeconds (small : t ≤ wordMax) : (wholeSeconds t).seconds = t := by
  rw [Span.seconds, nanos_wholeSeconds small, Nat.mul_div_cancel t (by decide)]

theorem subseconds_wholeSeconds (small : t ≤ wordMax) : (wholeSeconds t).subseconds = 0 := by
  rw [Span.subseconds, nanos_wholeSeconds small, Nat.mul_mod_left]

theorem wholeSeconds_mono (le : t ≤ later) : wholeSeconds t ≤ wholeSeconds later :=
  Span.le_iff.mpr (min_le_min_right _ (Nat.mul_le_mul_right _ le))

theorem wholeSeconds_sub (le : t ≤ later) (small : later ≤ wordMax) :
    wholeSeconds later - wholeSeconds t = wholeSeconds (later - t) := by
  refine Span.ext ?_
  rw [Span.nanos_sub, nanos_wholeSeconds small, nanos_wholeSeconds (le.trans small),
    nanos_wholeSeconds ((Nat.sub_le _ _).trans small), Nat.sub_mul]

/-- The hits that a constant rate owes between two whole seconds. -/
theorem owed_wholeSeconds (p : ConstantPacer) (le : t ≤ later) (small : later ≤ wordMax) :
    p.owed (wholeSeconds later - wholeSeconds t) = min (p.rate.toNat * (later - t)) wordMax := by
  rw [ConstantPacer.owed, wholeSeconds_sub le small,
    seconds_wholeSeconds ((Nat.sub_le _ _).trans small)]

theorem nanos_of_whole {span : Span} (whole : span.subseconds = 0) :
    span.nanos = span.seconds * nanosPerSecond := by
  rw [← Span.seconds_mul_add_subseconds span, whole, Nat.add_zero]

theorem eq_wholeSeconds {span : Span} (whole : span.subseconds = 0) :
    span = wholeSeconds span.seconds :=
  Span.ext ((nanos_of_whole whole).trans (nanos_wholeSeconds span.seconds_le).symm)

theorem seconds_le_of_le {span : Span} (small : t ≤ wordMax) (le : span ≤ wholeSeconds t) :
    span.seconds ≤ t := by
  have seconds := Nat.div_le_div_right (c := nanosPerSecond) (Span.le_iff.mp le)
  exact seconds.trans_eq (seconds_wholeSeconds small)

theorem roundedSeconds_of_whole {span : Span} (whole : span.subseconds = 0)
    (small : span.seconds ≤ 2 ^ 53) : roundedSeconds span = span.seconds := by
  rw [roundedSeconds, whole, Nat.cast_zero, zero_div, rounded_zero, add_zero,
    rounded_natCast small, rounded_natCast small]

theorem le_wordMax_of_exact (small : t ≤ 2 ^ 53) : t ≤ wordMax := by
  unfold wordMax
  omega

theorem exact_of_in_range (in_range : t * nanosPerSecond ≤ wordMax) : t ≤ 2 ^ 53 := by
  unfold nanosPerSecond wordMax at in_range
  omega

theorem roundedSeconds_wholeSeconds (small : t ≤ 2 ^ 53) : roundedSeconds (wholeSeconds t) = t := by
  have fits := le_wordMax_of_exact small
  have seconds := seconds_wholeSeconds fits
  have rounded := roundedSeconds_of_whole (subseconds_wholeSeconds fits)
  rw [seconds] at rounded
  exact rounded small

/-! ## The rate of a ramp -/

namespace Ramp

variable {r : Ramp}

/-- A step that is too large to be exact still takes the ramp below zero. -/
theorem rounded_fall_le (start_le : r.start.toNat ≤ 2 ^ 53) (some_periods : 0 < n)
    (fallen : r.start.toNat + r.step.toInt * n ≤ 0) :
    rounded r.step.toInt * n ≤ -r.start.toNat := by
  have periods : (1 : Int) ≤ n := by exact_mod_cast some_periods
  by_cases few : -2 ^ 53 ≤ r.step.toInt
  · have down : r.step.toInt ≤ 0 := by
      by_contra up
      have positive := mul_pos (not_le.mp up) (by omega : (0 : Int) < n)
      omega
    rw [rounded_intCast (abs_le.mpr ⟨few, by omega⟩)]
    have whole : r.step.toInt * n ≤ -(r.start.toNat : Int) := by omega
    exact_mod_cast whole
  · have limit : rounded (-2 ^ 53) = -2 ^ 53 := by
      rw [rounded_neg]
      exact_mod_cast congrArg Neg.neg (rounded_natCast (n := 2 ^ 53) le_rfl)
    have deep : rounded r.step.toInt ≤ -2 ^ 53 := by
      rw [← limit]
      exact rounded_mono (by exact_mod_cast (not_le.mp few).le)
    have periods_rat : (1 : Rat) ≤ n := by exact_mod_cast some_periods
    have start_rat : (r.start.toNat : Rat) ≤ 2 ^ 53 := by exact_mod_cast start_le
    calc rounded r.step.toInt * n ≤ -2 ^ 53 * n := by gcongr
      _ ≤ -2 ^ 53 * 1 := mul_le_mul_of_nonpos_left periods_rat (by norm_num)
      _ ≤ -r.start.toNat := by linarith

/-- Every step changes the rate by one at least. -/
theorem periods_le_of_change_le (change_le : |r.step.toInt * n| ≤ 2 ^ 53) : n ≤ 2 ^ 53 := by
  have step_pos : 1 ≤ |r.step.toInt| :=
    Int.one_le_abs fun zero => r.step_ne_zero (Int64.toInt_inj.mp zero)
  rw [abs_mul, Nat.abs_cast] at change_le
  have single := le_mul_of_one_le_left (Int.natCast_nonneg n) step_pos
  exact_mod_cast single.trans change_le

/-- While the change of the rate takes no more than 53 bits, only its sum with the start rate is
rounded. -/
theorem rateOfPeriods_of_change_le (start_le : r.start.toNat ≤ 2 ^ 53)
    (change_le : |r.step.toInt * n| ≤ 2 ^ 53) :
    r.rateOfPeriods n = max 0 (rounded (r.start.toNat + r.step.toInt * n : Int)) := by
  have product_le := change_le
  rw [abs_mul, Nat.abs_cast] at product_le
  have change : rounded ((r.step.toInt : Rat) * n) = ((r.step.toInt * n : Int) : Rat) := by
    exact_mod_cast rounded_intCast change_le
  rw [rateOfPeriods, rounded_natCast start_le, rounded_natCast (periods_le_of_change_le change_le)]
  rcases Nat.eq_zero_or_pos n with rfl | some_periods
  · simp
  · have step_le : |r.step.toInt| ≤ 2 ^ 53 :=
      (le_mul_of_one_le_right (abs_nonneg _) (by exact_mod_cast some_periods)).trans product_le
    rw [rounded_intCast step_le, change]
    push_cast
    rfl

/-- In 53 bits a ramp is not rounded, however far it has fallen below zero. -/
theorem rateOfPeriods_eq (start_le : r.start.toNat ≤ 2 ^ 53) (n_le : n ≤ 2 ^ 53)
    (rate_le : r.start.toNat + r.step.toInt * n ≤ 2 ^ 53) :
    r.rateOfPeriods n = ((r.start.toNat + r.step.toInt * n).toNat : Nat) := by
  have start_small : (r.start.toNat : Int) ≤ 2 ^ 53 := by exact_mod_cast start_le
  rcases lt_or_ge (r.start.toNat + r.step.toInt * n) 0 with fallen | still
  · have some_periods : 0 < n := by
      by_contra first
      rw [Nat.eq_zero_of_not_pos first, Nat.cast_zero, Int.mul_zero] at fallen
      omega
    have change : rounded (rounded r.step.toInt * n) ≤ -r.start.toNat := by
      rw [← rounded_natCast start_le, ← rounded_neg]
      exact rounded_mono (rounded_fall_le start_le some_periods fallen.le)
    rw [rateOfPeriods, rounded_natCast start_le, rounded_natCast n_le,
      Int.toNat_of_nonpos fallen.le, Nat.cast_zero]
    refine max_eq_left ?_
    rw [← rounded_zero]
    exact rounded_mono (by linarith)
  · have change_le : |r.step.toInt * n| ≤ 2 ^ 53 := abs_le.mpr ⟨by omega, by omega⟩
    have whole : ((r.start.toNat + r.step.toInt * n).toNat : Rat) =
        (r.start.toNat + r.step.toInt * n : Int) := by
      exact_mod_cast congrArg (Int.cast (R := Rat)) (Int.toNat_of_nonneg still)
    rw [rateOfPeriods_of_change_le start_le change_le,
      rounded_intCast (abs_le.mpr ⟨by omega, rate_le⟩), whole]
    exact max_eq_right (by exact_mod_cast still)

/-- A rate that is too large to be exact is not rounded below `2 ^ 53`. -/
theorem le_rateOfPeriods (start_le : r.start.toNat ≤ 2 ^ 53)
    (change_le : |r.step.toInt * n| ≤ 2 ^ 53)
    (large : 2 ^ 53 ≤ r.start.toNat + r.step.toInt * n) : 2 ^ 53 ≤ r.rateOfPeriods n := by
  have limit : rounded ((2 ^ 53 : Int) : Rat) = (2 ^ 53 : Int) := rounded_intCast (by norm_num)
  have large_rat : ((2 ^ 53 : Int) : Rat) ≤ (r.start.toNat + r.step.toInt * n : Int) := by
    exact_mod_cast large
  rw [rateOfPeriods_of_change_le start_le change_le]
  calc (2 ^ 53 : Rat) = rounded (2 ^ 53 : Int) := by rw [limit]; norm_num
    _ ≤ rounded (r.start.toNat + r.step.toInt * n : Int) := rounded_mono large_rat
    _ ≤ max 0 (rounded (r.start.toNat + r.step.toInt * n : Int)) := le_max_right _ _

end Ramp

namespace Course

variable {c : Course}

/-- The course in whole numbers; its constant phase begins with the first whole second that
is not before it. -/
def wholeSchedule (c : Course) : WholeSchedule where
  start := c.ramp.start.toNat
  step := c.ramp.step.toInt
  period := c.ramp.period.seconds
  phase? := c.constantAt?.map fun phaseStart =>
    (phaseStart.nanos + (nanosPerSecond - 1)) / nanosPerSecond
  held := c.heldPacer.rate.toNat

/-- The times of a course are whole seconds, and its rates and hits take no more than 53 bits
until the second `horizon`. -/
structure ExactUntil (c : Course) (horizon : Nat) : Prop where
  in_range : horizon * nanosPerSecond ≤ wordMax
  period_whole : c.ramp.period.subseconds = 0
  duration_whole : ∀ duration, c.loadDuration? = some duration → duration.subseconds = 0
  start_le : c.ramp.start.toNat ≤ 2 ^ 53
  rate_le : ∀ t ≤ horizon, c.wholeSchedule.rate t ≤ 2 ^ 53
  hits_le : ∀ t ≤ horizon, c.wholeSchedule.hits t ≤ 2 ^ 53

theorem hitsOfPeriods_one (constantAt? : Option Span) (held : UInt64) :
    c.hitsOfPeriods constantAt? held 1 =
      rounded (roundedSeconds c.ramp.period * rounded c.ramp.start.toNat) := rfl

theorem hitsOfPeriods_succ (constantAt? : Option Span) (held : UInt64) (n : Nat) :
    c.hitsOfPeriods constantAt? held (n + 1 + 1) =
      rounded (c.hitsOfPeriods constantAt? held (n + 1) +
        rounded (c.rateWith constantAt? held (periodStart c.ramp.period (n + 1)) *
          roundedSeconds c.ramp.period)) := rfl

/-- The times of a course are whole seconds, and its start rate takes no more than 53 bits. -/
structure WholeTimes (c : Course) : Prop where
  period_whole : c.ramp.period.subseconds = 0
  duration_whole : ∀ duration, c.loadDuration? = some duration → duration.subseconds = 0
  start_le : c.ramp.start.toNat ≤ 2 ^ 53

/-- All times are whole seconds, the period of second `t` begins within the 64-bit nanoseconds,
and the start rate and the hits due take no more than 53 bits. -/
structure ExactAt (c : Course) (t : Nat) : Prop extends c.WholeTimes where
  in_range : t / c.wholeSchedule.period * c.wholeSchedule.period * nanosPerSecond ≤ wordMax
  hits_le : c.wholeSchedule.hits t ≤ 2 ^ 53

/-- The constant phase never begins, or begins with a period, or holds the rate that the ramp
has reached after the load duration. -/
def Unbroken (c : Course) (plan : Plan) : Prop :=
  plan.constantAt? = none ∨
    (∃ phaseStart, plan.constantAt? = some phaseStart ∧
      c.ramp.period.nanos ∣ phaseStart.nanos) ∨
    c.hold.rate = 0

theorem start_pos (c : Course) : 0 < c.wholeSchedule.start :=
  toNat_pos c.ramp.start_ne_zero

theorem begun_iff (small : t ≤ wordMax) :
    c.wholeSchedule.Begun t ↔
      ∃ phaseStart, c.constantAt? = some phaseStart ∧ phaseStart ≤ wholeSeconds t := by
  have nanos := nanos_wholeSeconds small
  cases begins : c.constantAt? with
  | none => simp [WholeSchedule.Begun, wholeSchedule, begins]
  | some phaseStart =>
      have reached : (phaseStart.nanos + (nanosPerSecond - 1)) / nanosPerSecond ≤ t ↔
          phaseStart.nanos ≤ t * nanosPerSecond := by
        unfold nanosPerSecond
        omega
      simp [WholeSchedule.Begun, wholeSchedule, begins, Span.le_iff, nanos, reached]

namespace WholeTimes

variable (times : c.WholeTimes)
include times

theorem period_nanos : c.ramp.period.nanos = c.wholeSchedule.period * nanosPerSecond :=
  nanos_of_whole times.period_whole

theorem period_pos : 0 < c.wholeSchedule.period := by
  by_contra none
  have nothing := times.period_nanos
  rw [Nat.eq_zero_of_not_pos none, Nat.zero_mul] at nothing
  exact c.ramp.period_ne_zero nothing

theorem wholePeriods_eq (small : t ≤ wordMax) :
    (wholePeriods (wholeSeconds t) c.ramp.period).toNat = t / c.wholeSchedule.period := by
  rw [wholePeriods, nanos_wholeSeconds small, times.period_nanos,
    Nat.mul_div_mul_right _ _ (by decide), toNat_saturate,
    Nat.min_eq_left ((Nat.div_le_self _ _).trans small)]

theorem periodStart_eq (in_range : n * c.wholeSchedule.period * nanosPerSecond ≤ wordMax) :
    periodStart c.ramp.period n = wholeSeconds (n * c.wholeSchedule.period) := by
  have nanos : c.ramp.period.nanos * n = n * c.wholeSchedule.period * nanosPerSecond := by
    rw [times.period_nanos, Nat.mul_comm, Nat.mul_assoc]
  rw [periodStart, nanos, Nat.min_eq_left in_range, wholeSeconds]

/-! ### The constant phase -/

theorem phaseStart_whole {phaseStart : Span} (begins : c.constantAt? = some phaseStart) :
    phaseStart.subseconds = 0 := by
  cases set : c.loadDuration? with
  | some duration =>
      simp only [constantAt?, set, Option.some.injEq] at begins
      exact begins ▸ times.duration_whole _ set
  | none =>
      obtain ⟨n, -, nanos, -, -⟩ := constantAt?_eq_some set begins
      rw [Span.subseconds, nanos, times.period_nanos, Nat.mul_right_comm, Nat.mul_mod_left]

theorem exists_phaseStart (starts : phase ∈ c.wholeSchedule.phase?) :
    ∃ phaseStart, c.constantAt? = some phaseStart ∧ phaseStart.subseconds = 0 ∧
      phaseStart.seconds = phase := by
  obtain ⟨phaseStart, begins, ceiling⟩ := Option.map_eq_some_iff.mp starts
  have whole := times.phaseStart_whole begins
  refine ⟨phaseStart, begins, whole, ?_⟩
  rw [nanos_of_whole whole] at ceiling
  unfold nanosPerSecond at ceiling
  omega

/-- The constant phase begins with a whole second. -/
theorem constantAt?_eq (starts : phase ∈ c.wholeSchedule.phase?) :
    c.constantAt? = some (wholeSeconds phase) := by
  obtain ⟨phaseStart, begins, whole, rfl⟩ := times.exists_phaseStart starts
  rw [begins, ← eq_wholeSeconds whole]

theorem phase_le (starts : phase ∈ c.wholeSchedule.phase?) : phase ≤ wordMax := by
  obtain ⟨phaseStart, -, -, rfl⟩ := times.exists_phaseStart starts
  exact phaseStart.seconds_le

theorem mem_phase? {phaseStart : Span} (begins : c.constantAt? = some phaseStart) :
    phaseStart.seconds ∈ c.wholeSchedule.phase? := by
  refine Option.map_eq_some_iff.mpr ⟨phaseStart, begins, ?_⟩
  rw [nanos_of_whole (times.phaseStart_whole begins)]
  unfold nanosPerSecond
  omega

/-- Where the constant phase breaks no period off, the schedule in whole numbers is steady. -/
theorem steady (timed : c.loadDuration? ≠ some .zero) (held_le : c.heldPacer.rate.toNat ≤ 2 ^ 53)
    (unbroken : c.Unbroken c.plan) : c.wholeSchedule.Steady := by
  intro phase starts
  have begins := times.constantAt?_eq starts
  have nanos := nanos_wholeSeconds (times.phase_le starts)
  have some_time := phaseStart_ne_zero timed begins
  rw [nanos] at some_time
  refine ⟨Nat.pos_of_ne_zero (left_ne_zero_of_mul some_time), ?_⟩
  rcases unbroken with never | ⟨phaseStart, begins_plan, boundary⟩ | none_set
  · exact absurd (begins.symm.trans never) nofun
  · cases begins.symm.trans begins_plan
    rw [nanos, times.period_nanos] at boundary
    exact Or.inl (Nat.mod_eq_zero_of_dvd (Nat.dvd_of_mul_dvd_mul_right (by decide) boundary))
  · refine Or.inr ?_
    cases set : c.loadDuration? with
    | none => simp [constantAt?, set, none_set] at begins
    | some duration =>
        simp only [constantAt?, set, Option.some.injEq] at begins
        have held : c.heldPacer.rate = c.ramp.rateAfter (phase / c.wholeSchedule.period) := by
          simp only [heldPacer, set, none_set, if_true, begins,
            times.wholePeriods_eq (times.phase_le starts)]
        have reached := congrArg UInt64.toNat held
        rw [Ramp.rateAfter, toNat_saturate] at reached
        rcases le_total _ wordMax with fits | large
        · rw [Nat.min_eq_left fits] at reached
          exact reached
        · rw [Nat.min_eq_right large] at reached
          rw [reached] at held_le
          exact absurd held_le (by decide)

theorem rateWith_of_not_begun (small : t ≤ wordMax) (early : ¬ c.wholeSchedule.Begun t) :
    c.rateWith c.constantAt? c.heldPacer.rate (wholeSeconds t) =
      c.ramp.rateOfPeriods (t / c.wholeSchedule.period) := by
  have ramp := c.ramp.rateAt_eq (wholeSeconds t)
  rw [times.wholePeriods_eq small] at ramp
  cases begins : c.constantAt? with
  | none => exact ramp
  | some phaseStart =>
      have before : ¬ phaseStart ≤ wholeSeconds t :=
        fun begun => early ((begun_iff small).mpr ⟨phaseStart, begins, begun⟩)
      exact (if_neg before).trans ramp

/-- The rates are those in whole numbers. -/
theorem rateWith_eq (small : t ≤ 2 ^ 53) (rate_le : c.wholeSchedule.rate t ≤ 2 ^ 53) :
    c.rateWith c.constantAt? c.heldPacer.rate (wholeSeconds t) = c.wholeSchedule.rate t := by
  have fits := le_wordMax_of_exact small
  by_cases begun : c.wholeSchedule.Begun t
  · rw [WholeSchedule.rate_of_begun begun] at rate_le ⊢
    obtain ⟨phaseStart, begins, before⟩ := (begun_iff fits).mp begun
    simp only [rateWith, begins, if_pos before]
    exact rounded_natCast rate_le
  · rw [WholeSchedule.rate_of_not_begun begun] at rate_le ⊢
    rw [times.rateWith_of_not_begun fits begun]
    exact Ramp.rateOfPeriods_eq times.start_le ((Nat.div_le_self _ _).trans small)
      (Int.toNat_le.mp rate_le)

theorem roundedSeconds_period (period_le : c.wholeSchedule.period ≤ 2 ^ 53) :
    roundedSeconds c.ramp.period = c.wholeSchedule.period :=
  roundedSeconds_of_whole times.period_whole period_le

/-- The hits of the periods that have passed are those in whole numbers. -/
theorem hitsOfPeriods_eq (in_range : n * c.wholeSchedule.period * nanosPerSecond ≤ wordMax)
    (total_le : c.wholeSchedule.hitsOfPeriods (n + 1) ≤ 2 ^ 53) :
    c.hitsOfPeriods c.constantAt? c.heldPacer.rate (n + 1) =
      c.wholeSchedule.hitsOfPeriods (n + 1) := by
  induction n with
  | zero =>
      rw [Nat.zero_add, WholeSchedule.hitsOfPeriods_one] at total_le ⊢
      have period_le := (Nat.le_mul_of_pos_right _ c.start_pos).trans total_le
      rw [hitsOfPeriods_one, times.roundedSeconds_period period_le,
        rounded_natCast times.start_le]
      exact rounded_mul_natCast total_le
  | succ n ih =>
      have before := Nat.mul_le_mul_right nanosPerSecond
        (Nat.mul_le_mul_right c.wholeSchedule.period (Nat.le_succ n))
      have instant_le := exact_of_in_range in_range
      have period_le := (Nat.le_mul_of_pos_left _ (Nat.succ_pos n)).trans instant_le
      rw [WholeSchedule.hitsOfPeriods_succ (Nat.succ_pos n)] at total_le ⊢
      have sooner := ih (before.trans in_range) ((Nat.le_add_right _ _).trans total_le)
      have added_le := (Nat.le_add_left _ _).trans total_le
      have rate_le := (Nat.le_mul_of_pos_right _ times.period_pos).trans added_le
      rw [hitsOfPeriods_succ, sooner, times.periodStart_eq in_range,
        times.rateWith_eq instant_le rate_le, times.roundedSeconds_period period_le,
        rounded_mul_natCast added_le]
      exact rounded_add_natCast total_le

end WholeTimes

/-! ### The hits due -/

namespace ExactAt

variable (exact : c.ExactAt t)
include exact

/-- Hits that take 53 bits are due within as many seconds. -/
theorem seconds_le : t ≤ 2 ^ 53 := by
  have total_le := exact.hits_le
  by_cases first : t / c.wholeSchedule.period = 0
  · rw [WholeSchedule.hits_of_first first] at total_le
    exact (Nat.le_mul_of_pos_right _ c.start_pos).trans total_le
  · have part := Nat.mod_lt t exact.period_pos
    have whole := Nat.div_add_mod' t c.wholeSchedule.period
    have period_le := Nat.le_mul_of_pos_left c.wholeSchedule.period (Nat.pos_of_ne_zero first)
    have start_le := exact.in_range
    unfold nanosPerSecond wordMax at start_le
    omega

theorem le_wordMax : t ≤ wordMax := le_wordMax_of_exact exact.seconds_le

/-- The hits due are those in whole numbers. -/
theorem expectedHits_eq :
    c.expectedHits c.plan (wholeSeconds t) = c.wholeSchedule.hits t := by
  have times := exact.toWholeTimes
  have in_range := exact.in_range
  have total_le := exact.hits_le
  have small := exact.seconds_le
  change c.hitsWith c.constantAt? c.heldPacer.rate (wholeSeconds t) = c.wholeSchedule.hits t
  simp only [hitsWith, times.wholePeriods_eq exact.le_wordMax]
  by_cases first : t / c.wholeSchedule.period = 0
  · rw [WholeSchedule.hits_of_first first] at total_le ⊢
    rw [if_pos first, roundedSeconds_wholeSeconds small, rounded_natCast times.start_le]
    exact rounded_mul_natCast total_le
  · have part : wholeSeconds t - periodStart c.ramp.period (t / c.wholeSchedule.period) =
        wholeSeconds (t % c.wholeSchedule.period) := by
      rw [times.periodStart_eq in_range,
        wholeSeconds_sub (Nat.div_mul_le_self _ _) exact.le_wordMax, ← Nat.mod_eq_sub_div_mul]
    rw [WholeSchedule.hits_of_later first] at total_le ⊢
    have full : c.hitsOfPeriods c.constantAt? c.heldPacer.rate (t / c.wholeSchedule.period) =
        c.wholeSchedule.hitsOfPeriods (t / c.wholeSchedule.period) := by
      obtain ⟨n, periods⟩ := Nat.exists_eq_add_one_of_ne_zero first
      rw [periods] at in_range total_le ⊢
      have before := Nat.mul_le_mul_right nanosPerSecond
        (Nat.mul_le_mul_right c.wholeSchedule.period (Nat.le_succ n))
      exact times.hitsOfPeriods_eq (before.trans in_range) ((Nat.le_add_right _ _).trans total_le)
    have part_le := (Nat.le_add_left _ _).trans total_le
    -- with no second of the present period passed, its rate does not count
    have present : rounded ((t % c.wholeSchedule.period : Nat) *
        c.rateWith c.constantAt? c.heldPacer.rate (wholeSeconds t)) =
          (t % c.wholeSchedule.period * c.wholeSchedule.rate t : Nat) := by
      rcases Nat.eq_zero_or_pos (t % c.wholeSchedule.period) with start | inside
      · rw [start, Nat.cast_zero, zero_mul, Nat.zero_mul, rounded_zero, Nat.cast_zero]
      · have rate_le := (Nat.le_mul_of_pos_left _ inside).trans part_le
        rw [times.rateWith_eq small rate_le]
        exact rounded_mul_natCast part_le
    rw [if_neg first, part, roundedSeconds_wholeSeconds ((Nat.mod_le _ _).trans small), present,
      full]
    exact rounded_add_natCast total_le

theorem wholePart_expectedHits :
    (wholePart (c.expectedHits c.plan (wholeSeconds t))).toNat = c.wholeSchedule.hits t := by
  rw [exact.expectedHits_eq, wholePart_natCast, toNat_saturate,
    Nat.min_eq_left (le_wordMax_of_exact exact.hits_le)]

/-- The hits due before the constant phase are those in whole numbers. -/
theorem baseHits_eq (starts : t ∈ c.wholeSchedule.phase?) :
    c.plan.baseHits.toNat = c.wholeSchedule.hits t := by
  have base : c.plan.baseHits = wholePart (c.expectedHits c.plan (wholeSeconds t)) := by
    simp only [plan, expectedHits, exact.constantAt?_eq starts]
  rw [base, exact.wholePart_expectedHits]

/-- Where the schedule is steady, the seconds before an exact one are exact as well. -/
theorem mono (steady : c.wholeSchedule.Steady) {sooner : Nat} (le : sooner ≤ t) :
    c.ExactAt sooner where
  toWholeTimes := exact.toWholeTimes
  in_range := by
    have periods := Nat.div_le_div_right (c := c.wholeSchedule.period) le
    exact (Nat.mul_le_mul_right _ (Nat.mul_le_mul_right _ periods)).trans exact.in_range
  hits_le := (steady.hits_mono exact.period_pos le).trans exact.hits_le

end ExactAt

namespace ExactUntil

variable (exact : c.ExactUntil horizon)
include exact

theorem times : c.WholeTimes := ⟨exact.period_whole, exact.duration_whole, exact.start_le⟩

theorem nanos_le (le : t ≤ horizon) : t * nanosPerSecond ≤ wordMax :=
  (Nat.mul_le_mul_right _ le).trans exact.in_range

theorem mono (le : t ≤ horizon) : c.ExactUntil t where
  in_range := exact.nanos_le le
  period_whole := exact.period_whole
  duration_whole := exact.duration_whole
  start_le := exact.start_le
  rate_le := fun sooner sooner_le => exact.rate_le sooner (sooner_le.trans le)
  hits_le := fun sooner sooner_le => exact.hits_le sooner (sooner_le.trans le)

theorem seconds_le (le : t ≤ horizon) : t ≤ wordMax :=
  (Nat.le_mul_of_pos_right _ (by decide)).trans (exact.nanos_le le)

theorem exactAt (le : t ≤ horizon) : c.ExactAt t where
  toWholeTimes := exact.times
  in_range := exact.nanos_le ((Nat.div_mul_le_self _ _).trans le)
  hits_le := exact.hits_le t le

theorem period_pos : 0 < c.wholeSchedule.period := exact.times.period_pos

theorem wholePart_expectedHits (le : t ≤ horizon) :
    (wholePart (c.expectedHits c.plan (wholeSeconds t))).toNat = c.wholeSchedule.hits t :=
  (exact.exactAt le).wholePart_expectedHits

theorem baseHits_eq (le : phase ≤ horizon) (starts : phase ∈ c.wholeSchedule.phase?) :
    c.plan.baseHits.toNat = c.wholeSchedule.hits phase :=
  (exact.exactAt le).baseHits_eq starts

end ExactUntil

end Course

end LoadShape.Pacing
