import LoadShape.Pacing.CheckedPacer
import LoadShape.Proofs.Number.RoundedRange
import LoadShape.Proofs.Pacing.WholeSeconds

/-!
# Pacing does not overflow

Whatever a pacer is made from and asked, no operation fails in checked arithmetic.  The bounds
are those of the types that go in.  Three of them rest on more than that: the search for a
crossing on a start rate and a rate to hold that are not zero, the instant of the next hit on the
test against the last instant of any schedule, and the sum over the periods, of which there may be
so many that their rounding errors alone could add up to anything, on the rounding itself.
-/

namespace LoadShape.Pacing

open LoadShape.Number LoadShape.Number.Checked LoadShape.Time

/-! ## Counters -/

theorem natCast_le_two_pow {n : Nat} (le : n ≤ wordMax) : (n : Rat) ≤ 2 ^ 64 := by
  have next : n ≤ 2 ^ 64 := le.trans (by decide)
  exact_mod_cast next

theorem rounded_word_nonneg (w : UInt64) : 0 ≤ rounded w.toNat := rounded_nonneg (Nat.cast_nonneg _)

theorem rounded_word_le (w : UInt64) : rounded w.toNat ≤ 2 ^ 64 :=
  rounded_le_two_pow (natCast_le_two_pow (toNat_le_wordMax w))

theorem double_word (w : UInt64) : double w.toNat = .ok (rounded w.toNat) :=
  double_of_le (Nat.cast_nonneg _) (natCast_le_two_pow (toNat_le_wordMax w)) (by decide)

/-! ## Times -/

theorem wide_nanos (t : Span) : wide t.nanos = .ok t.nanos :=
  wide_of_le (t.nanos_lt.le.trans (by decide))

theorem wholePeriodsChecked_eq (elapsed : Span) {period : Span} (lasting : period.nanos ≠ 0) :
    wholePeriodsChecked elapsed period = .ok (wholePeriods elapsed period) := by
  rw [wholePeriodsChecked, wide_nanos, ok_bind, wide_nanos, ok_bind, quotient_of_ne_zero lasting,
    ok_bind]
  rfl

theorem periodStartChecked_eq (period : Span) (n : Nat) :
    periodStartChecked period n = .ok (periodStart period n) := by
  rw [periodStartChecked, wide_nanos, ok_bind]
  rfl

theorem roundedSeconds_nonneg (t : Span) : 0 ≤ roundedSeconds t :=
  rounded_nonneg (add_nonneg (rounded_nonneg (Nat.cast_nonneg _)) (rounded_nonneg (by positivity)))

/-- The part of a second is less than a second. -/
theorem subseconds_div_le (t : Span) : (t.subseconds : Rat) / nanosPerSecond ≤ 2 ^ 0 := by
  have part_lt : t.subseconds < nanosPerSecond := Nat.mod_lt _ (by decide)
  rw [pow_zero, div_le_one (by norm_num [nanosPerSecond])]
  exact_mod_cast part_lt.le

theorem seconds_add_le (t : Span) :
    rounded t.seconds + rounded (t.subseconds / nanosPerSecond) ≤ 2 ^ 65 := by
  have seconds := rounded_le_two_pow (natCast_le_two_pow t.seconds_le)
  have part := rounded_le_two_pow (subseconds_div_le t)
  linarith

theorem roundedSeconds_le (t : Span) : roundedSeconds t ≤ 2 ^ 65 :=
  rounded_le_two_pow (seconds_add_le t)

theorem secondsChecked_eq (t : Span) : secondsChecked t = .ok (roundedSeconds t) := by
  have seconds := double_of_le (Nat.cast_nonneg _) (natCast_le_two_pow t.seconds_le) (by decide)
  have part_nonneg : (0 : Rat) ≤ t.subseconds / nanosPerSecond := by positivity
  have part := double_of_le part_nonneg (subseconds_div_le t) (by decide)
  have sum := double_of_le
    (add_nonneg (rounded_nonneg (Nat.cast_nonneg t.seconds)) (rounded_nonneg part_nonneg))
    (seconds_add_le t) (by decide)
  rw [secondsChecked, seconds, ok_bind, ratio_of_ne_zero (by norm_num [nanosPerSecond]), part,
    ok_bind, sum]
  rfl

/-! ## Constant rates -/

theorem outOfRangeChecked_eq (interval : Nat) (hits : UInt64) :
    outOfRangeChecked interval hits =
      .ok (decide (0 < interval ∧ scheduleEnd / interval < hits.toNat)) := by
  unfold outOfRangeChecked
  split
  · next none_between => simp [none_between]
  · next between =>
      rw [quotient_of_ne_zero between, ok_bind]
      exact congrArg Except.ok
        (decide_eq_decide.mpr (and_iff_right (Nat.pos_of_ne_zero between)).symm)

namespace ConstantPacer

/-- Within the schedule the instant of the next hit is a counter. -/
theorem dueNanos_le (p : ConstantPacer) {hits : UInt64}
    (inRange : ¬ (0 < p.interval ∧ scheduleEnd / p.interval < hits.toNat)) :
    p.dueNanos hits ≤ wordMax := by
  rcases Nat.eq_zero_or_pos p.interval with none_between | between
  · rw [dueNanos, none_between, Nat.mul_zero]
    exact Nat.zero_le _
  · have last : hits.toNat ≤ scheduleEnd / p.interval :=
      not_lt.mp fun late => inRange ⟨between, late⟩
    have next_le : (next hits).toNat ≤ hits.toNat + 1 := by
      rw [toNat_next]
      exact Nat.min_le_left _ _
    calc p.dueNanos hits ≤ (hits.toNat + 1) * p.interval := Nat.mul_le_mul_right _ next_le
      _ ≤ scheduleEnd + nanosPerSecond := due_le_of_inRange last
      _ ≤ wordMax := by decide

theorem paceChecked_eq (p : ConstantPacer) (elapsed : Span) (hits : UInt64) :
    p.paceChecked elapsed hits = .ok (p.pace elapsed hits) := by
  unfold paceChecked pace
  split
  · rfl
  split
  · rfl
  · next limited =>
      split
      · rfl
      · rw [quotient_of_ne_zero (toNat_pos limited).ne', ok_bind, outOfRangeChecked_eq, ok_bind]
        by_cases outOfRange : 0 < p.interval ∧ scheduleEnd / p.interval < hits.toNat
        · rw [if_pos outOfRange]
          exact if_pos (decide_eq_true outOfRange)
        · rw [if_neg outOfRange]
          refine (if_neg (mt of_decide_eq_true outOfRange)).trans ?_
          have due := word_of_le (p.dueNanos_le outOfRange)
          exact congrArg (· >>= _) due

theorem rateChecked_eq (p : ConstantPacer) : p.rateChecked = .ok p.rateValue :=
  double_word p.rate

end ConstantPacer

/-! ## Ramps -/

namespace Ramp

variable {r : Ramp} {n : Nat}

theorem abs_step_le (r : Ramp) : |(r.step.toInt : Rat)| ≤ 2 ^ 63 := by
  have low := r.step.le_toInt
  have high := r.step.toInt_lt
  have bounds : |r.step.toInt| ≤ 2 ^ 63 := abs_le.mpr ⟨by omega, by omega⟩
  exact_mod_cast bounds

theorem abs_change_le (r : Ramp) (steps : UInt64) :
    |rounded r.step.toInt * rounded steps.toNat| ≤ 2 ^ 127 := by
  rw [abs_mul, abs_of_nonneg (rounded_word_nonneg steps)]
  calc |rounded r.step.toInt| * rounded steps.toNat ≤ 2 ^ 63 * 2 ^ 64 :=
        mul_le_mul (abs_rounded_le r.abs_step_le) (rounded_word_le steps)
          (rounded_word_nonneg steps) (by positivity)
    _ = 2 ^ 127 := by norm_num

theorem abs_sum_le (r : Ramp) (steps : UInt64) :
    |rounded r.start.toNat + rounded (rounded r.step.toInt * rounded steps.toNat)| ≤ 2 ^ 128 := by
  have start := rounded_word_le r.start
  have start_nonneg := rounded_word_nonneg r.start
  have change := abs_le.mp (abs_rounded_le (r.abs_change_le steps))
  exact abs_le.mpr ⟨by linarith [change.1], by linarith [change.2]⟩

theorem rateAtChecked_eq (r : Ramp) (elapsed : Span) :
    r.rateAtChecked elapsed = .ok (r.rateAt elapsed) := by
  rw [rateAtChecked, wholePeriodsChecked_eq elapsed r.period_ne_zero, ok_bind, double_word, ok_bind,
    double_of_abs_le r.abs_step_le (by decide), ok_bind, double_word, ok_bind,
    double_of_abs_le (r.abs_change_le _) (by decide), ok_bind,
    double_of_abs_le (r.abs_sum_le _) (by decide), ok_bind]
  rfl

theorem rateAt_nonneg (r : Ramp) (elapsed : Span) : 0 ≤ r.rateAt elapsed := by
  rw [rateAt_eq]
  exact r.rateOfPeriods_nonneg _

theorem rateAt_le (r : Ramp) (elapsed : Span) : r.rateAt elapsed ≤ 2 ^ 128 := by
  rw [rateAt_eq, rateOfPeriods]
  exact max_le (by positivity) (rounded_le_two_pow (abs_le.mp (r.abs_sum_le _)).2)

/-- A ramp has whole rates only, whatever is rounded. -/
theorem exists_rateAt_intCast (r : Ramp) (elapsed : Span) : ∃ m : Int, r.rateAt elapsed = m := by
  obtain ⟨start, start_eq⟩ := exists_rounded_intCast r.start.toNat
  obtain ⟨step, step_eq⟩ := exists_rounded_intCast r.step.toInt
  obtain ⟨count, count_eq⟩ := exists_rounded_intCast (wholePeriods elapsed r.period).toNat
  obtain ⟨change, change_eq⟩ := exists_rounded_intCast (step * count)
  obtain ⟨rate, rate_eq⟩ := exists_rounded_intCast (start + change)
  push_cast at start_eq count_eq change_eq rate_eq
  refine ⟨max 0 rate, ?_⟩
  rw [rateAt_eq, rateOfPeriods, start_eq, step_eq, count_eq, change_eq, rate_eq]
  push_cast
  rfl

/-- The largest change of a rate and the start rate fill the signed 128 bits. -/
theorem rateAfterChecked_eq (r : Ramp) (steps : UInt64) :
    r.rateAfterChecked steps = .ok (r.rateAfter steps.toNat) := by
  have count := toNat_le_wordMax steps
  have start := toNat_le_wordMax r.start
  have low : -2 ^ 63 * (steps.toNat : Int) ≤ r.step.toInt * steps.toNat :=
    mul_le_mul_of_nonneg_right r.step.le_toInt (Int.natCast_nonneg _)
  have high : r.step.toInt * steps.toNat ≤ (2 ^ 63 - 1) * (steps.toNat : Int) :=
    mul_le_mul_of_nonneg_right (Int.le_sub_one_of_lt r.step.toInt_lt) (Int.natCast_nonneg _)
  unfold wordMax at count start
  have change : signedWideMin ≤ r.step.toInt * steps.toNat ∧
      r.step.toInt * steps.toNat ≤ signedWideMax := by
    unfold signedWideMin signedWideMax
    omega
  have rate : signedWideMin ≤ r.start.toNat + r.step.toInt * steps.toNat ∧
      r.start.toNat + r.step.toInt * steps.toNat ≤ signedWideMax := by
    unfold signedWideMin signedWideMax
    omega
  rw [rateAfterChecked, signedWide, keep_of_fits change, ok_bind, signedWide, keep_of_fits rate,
    ok_bind]
  rfl

end Ramp

/-! ## Rates of a course -/

namespace Course

variable {c : Course} {plan : Plan} {constantAt? : Option Span} {held : UInt64} {t : Span}

theorem rateWithChecked_eq (c : Course) (constantAt? : Option Span) (held : UInt64) (t : Span) :
    c.rateWithChecked constantAt? held t = .ok (c.rateWith constantAt? held t) := by
  unfold rateWithChecked rateWith
  cases constantAt? with
  | none => exact c.ramp.rateAtChecked_eq t
  | some phaseStart =>
      by_cases begun : phaseStart ≤ t
      · simp only [if_pos begun, double_word]
      · simp only [if_neg begun, Ramp.rateAtChecked_eq]

/-- A rate is one of the ramp or the one that is held. -/
theorem rateWith_cases (c : Course) (constantAt? : Option Span) (held : UInt64) (t : Span) :
    c.rateWith constantAt? held t = c.ramp.rateAt t ∨
      c.rateWith constantAt? held t = rounded held.toNat := by
  unfold rateWith
  cases constantAt? with
  | none => exact Or.inl rfl
  | some phaseStart =>
      by_cases begun : phaseStart ≤ t
      · exact Or.inr (if_pos begun)
      · exact Or.inl (if_neg begun)

theorem rateWith_nonneg (c : Course) (constantAt? : Option Span) (held : UInt64) (t : Span) :
    0 ≤ c.rateWith constantAt? held t := by
  rcases c.rateWith_cases constantAt? held t with ramp | phase
  · rw [ramp]
    exact c.ramp.rateAt_nonneg t
  · rw [phase]
    exact rounded_word_nonneg held

theorem rateWith_le (c : Course) (constantAt? : Option Span) (held : UInt64) (t : Span) :
    c.rateWith constantAt? held t ≤ 2 ^ 128 := by
  rcases c.rateWith_cases constantAt? held t with ramp | phase
  · rw [ramp]
    exact c.ramp.rateAt_le t
  · rw [phase]
    exact (rounded_word_le held).trans (by norm_num)

/-- A rate that is not zero is one hit per second at least. -/
theorem one_le_rateWith (positive : 0 < c.rateWith constantAt? held t) :
    1 ≤ c.rateWith constantAt? held t := by
  have whole : ∃ m : Int, c.rateWith constantAt? held t = m := by
    rcases c.rateWith_cases constantAt? held t with ramp | phase
    · rw [ramp]
      exact c.ramp.exists_rateAt_intCast t
    · rw [phase]
      exact_mod_cast exists_rounded_intCast held.toNat
  obtain ⟨m, whole⟩ := whole
  rw [whole] at positive ⊢
  have some_hits : 0 < m := by exact_mod_cast positive
  exact_mod_cast Int.add_one_le_of_lt some_hits

/-! ## Expected hits -/

/-- The hits of the time before the first step. -/
theorem startHits_le (c : Course) (t : Span) :
    roundedSeconds t * rounded c.ramp.start.toNat ≤ 2 ^ 129 :=
  calc roundedSeconds t * rounded c.ramp.start.toNat ≤ 2 ^ 65 * 2 ^ 64 :=
        mul_le_mul (roundedSeconds_le t) (rounded_word_le _) (rounded_word_nonneg _) (by positivity)
    _ = 2 ^ 129 := by norm_num

theorem startHits_nonneg (c : Course) (t : Span) :
    0 ≤ roundedSeconds t * rounded c.ramp.start.toNat :=
  mul_nonneg (roundedSeconds_nonneg t) (rounded_word_nonneg _)

/-- The hits of a span at the rate of an instant. -/
theorem moreHits_le (c : Course) (constantAt? : Option Span) (held : UInt64) (t span : Span) :
    c.rateWith constantAt? held t * roundedSeconds span ≤ 2 ^ 193 :=
  calc c.rateWith constantAt? held t * roundedSeconds span ≤ 2 ^ 128 * 2 ^ 65 :=
        mul_le_mul (c.rateWith_le _ _ _) (roundedSeconds_le span) (roundedSeconds_nonneg span)
          (by positivity)
    _ = 2 ^ 193 := by norm_num

theorem moreHits_nonneg (c : Course) (constantAt? : Option Span) (held : UInt64) (t span : Span) :
    0 ≤ c.rateWith constantAt? held t * roundedSeconds span :=
  mul_nonneg (c.rateWith_nonneg _ _ _) (roundedSeconds_nonneg span)

/-- Expected hits within a bound that no sum over periods passes. -/
structure HitsInRange (hits : Rat) : Prop where
  nonneg : 0 ≤ hits
  le : hits ≤ 2 ^ 247

theorem hitsInRange_of_first (c : Course) (t : Span) :
    HitsInRange (rounded (roundedSeconds t * rounded c.ramp.start.toNat)) where
  nonneg := rounded_nonneg (c.startHits_nonneg t)
  le := rounded_le_two_pow ((c.startHits_le t).trans (by norm_num))

section Sum

variable {total more : Rat} (inRange : HitsInRange total) (more_nonneg : 0 ≤ more)
  (more_le : more ≤ 2 ^ 193)
include inRange more_nonneg more_le

/-- The last place of `2 ^ 247` stands for `2 ^ 195` hits, and no period has a quarter of them. -/
theorem HitsInRange.add : HitsInRange (rounded (total + rounded more)) where
  nonneg := rounded_nonneg (add_nonneg inRange.nonneg (rounded_nonneg more_nonneg))
  le := rounded_add_le (k := 193) inRange.le (rounded_le_two_pow more_le)

/-- The hits of another period are worked out and added without a fault. -/
theorem HitsInRange.addChecked_eq :
    (double more >>= fun part => double (total + part)) =
      .ok (rounded (total + rounded more)) := by
  have sum_nonneg := add_nonneg inRange.nonneg (rounded_nonneg more_nonneg)
  rw [double_of_le more_nonneg more_le (by decide), ok_bind]
  refine double_of_le sum_nonneg (k := 248) ?_ (by decide)
  calc total + rounded more ≤ 2 ^ 247 + 2 ^ 193 :=
        add_le_add inRange.le (rounded_le_two_pow more_le)
    _ ≤ 2 ^ 248 := by norm_num

end Sum

/-- The sum over any number of periods stays within bounds. -/
theorem hitsOfPeriodsChecked_eq (c : Course) (constantAt? : Option Span) (held : UInt64) (n : Nat) :
    c.hitsOfPeriodsChecked constantAt? held n = .ok (c.hitsOfPeriods constantAt? held (n + 1)) ∧
      HitsInRange (c.hitsOfPeriods constantAt? held (n + 1)) := by
  induction n with
  | zero =>
      refine ⟨?_, c.hitsInRange_of_first c.ramp.period⟩
      rw [hitsOfPeriodsChecked, secondsChecked_eq, ok_bind, double_word, ok_bind,
        double_of_le (c.startHits_nonneg _) (c.startHits_le _) (by decide), hitsOfPeriods_one]
  | succ n ih =>
      obtain ⟨sum, inRange⟩ := ih
      have nonneg := c.moreHits_nonneg constantAt? held (periodStart c.ramp.period (n + 1))
        c.ramp.period
      have le := c.moreHits_le constantAt? held (periodStart c.ramp.period (n + 1)) c.ramp.period
      rw [hitsOfPeriodsChecked, sum, ok_bind, periodStartChecked_eq, ok_bind, rateWithChecked_eq,
        ok_bind, secondsChecked_eq, ok_bind, inRange.addChecked_eq nonneg le, hitsOfPeriods_succ]
      exact ⟨rfl, inRange.add nonneg le⟩

theorem hitsWithChecked_eq (c : Course) (constantAt? : Option Span) (held : UInt64) (t : Span) :
    c.hitsWithChecked constantAt? held t = .ok (c.hitsWith constantAt? held t) ∧
      HitsInRange (c.hitsWith constantAt? held t) := by
  rw [hitsWithChecked, wholePeriodsChecked_eq t c.ramp.period_ne_zero, ok_bind]
  unfold hitsWith
  by_cases first : wholePeriods t c.ramp.period = 0
  · have none_passed : (wholePeriods t c.ramp.period).toNat = 0 := congrArg UInt64.toNat first
    simp only [if_pos first, if_pos none_passed]
    rw [secondsChecked_eq, ok_bind, double_word, ok_bind,
      double_of_le (c.startHits_nonneg t) (c.startHits_le t) (by decide)]
    exact ⟨rfl, c.hitsInRange_of_first t⟩
  · have some_passed : (wholePeriods t c.ramp.period).toNat ≠ 0 := (toNat_pos first).ne'
    obtain ⟨n, periods⟩ := Nat.exists_eq_succ_of_ne_zero some_passed
    obtain ⟨sum, inRange⟩ := c.hitsOfPeriodsChecked_eq constantAt? held n
    simp only [if_neg first, if_neg some_passed]
    rw [periods, Nat.succ_sub_one, sum, ok_bind, periodStartChecked_eq, ok_bind, secondsChecked_eq,
      ok_bind, rateWithChecked_eq, ok_bind, mul_comm]
    have nonneg := c.moreHits_nonneg constantAt? held t (t - periodStart c.ramp.period (n + 1))
    have le := c.moreHits_le constantAt? held t (t - periodStart c.ramp.period (n + 1))
    rw [inRange.addChecked_eq nonneg le]
    exact ⟨rfl, inRange.add nonneg le⟩

theorem expectedHitsChecked_eq (c : Course) (plan : Plan) (t : Span) :
    c.hitsWithChecked plan.constantAt? plan.hold.rate t = .ok (c.expectedHits plan t) ∧
      HitsInRange (c.expectedHits plan t) :=
  c.hitsWithChecked_eq _ _ t

/-! ## The plan -/

/-- With two rates above zero the search ends within a counter. -/
theorem searchBoundChecked_eq (holds : c.hold.rate ≠ 0) :
    c.searchBoundChecked = .ok c.searchBound := by
  have changes : c.ramp.step.toInt.natAbs ≠ 0 :=
    Int.natAbs_ne_zero.mpr fun zero => c.ramp.step_ne_zero (Int64.toInt_inj.mp zero)
  have start_pos : 0 < c.ramp.start.toNat := c.start_pos
  have hold_pos : 0 < c.hold.rate.toNat := toNat_pos holds
  have start_le := toNat_le_wordMax c.ramp.start
  have hold_le := toNat_le_wordMax c.hold.rate
  have distance : (c.hold.rate.toNat - c.ramp.start.toNat : Int).natAbs + 1 ≤ wordMax := by omega
  have bound := (Nat.add_le_add_right (Nat.div_le_self _ c.ramp.step.toInt.natAbs) 1).trans distance
  rw [searchBoundChecked, quotient_of_ne_zero changes, ok_bind, word_of_le bound]
  rfl

/-- The steps down from the largest rate to none are one too many. -/
example : searchBoundChecked
    { ramp := ⟨18446744073709551615, -1, .ofSeconds 1, by decide, by decide, by decide⟩ } =
      .error .overflow := by
  rfl

theorem pastHoldChecked_eq (c : Course) (n : Nat) : c.pastHoldChecked n = .ok (c.pastHold n) := by
  rw [pastHoldChecked, periodStartChecked_eq, ok_bind, Ramp.rateAtChecked_eq, ok_bind, double_word,
    ok_bind]
  rfl

/-- A search does not fail if none of its tests does. -/
theorem leastFromChecked?_eq {property : Nat → Bool} {checked : Nat → Checked Bool}
    (same : ∀ n, checked n = .ok (property n)) (count i : Nat) :
    leastFromChecked? checked count i = .ok (leastFrom? property count i) := by
  induction count generalizing i with
  | zero => rfl
  | succ count ih =>
      rw [leastFromChecked?, leastFrom?, same, ok_bind, ih]
      exact (apply_ite Except.ok _ _ _).symm

theorem crossingChecked?_eq (holds : c.hold.rate ≠ 0) :
    c.crossingChecked? = .ok c.crossing? := by
  rw [crossingChecked?, searchBoundChecked_eq holds, ok_bind]
  exact leastFromChecked?_eq c.pastHoldChecked_eq _ _

theorem constantAtChecked?_eq (c : Course) : c.constantAtChecked? = .ok c.constantAt? := by
  unfold constantAtChecked? constantAt?
  cases c.loadDuration? with
  | some duration => rfl
  | none =>
      by_cases unset : c.hold.rate = 0
      · simp only [if_pos unset]
      · simp only [if_neg unset]
        rw [crossingChecked?_eq unset, ok_bind]
        cases c.crossing? with
        | none => rfl
        | some n => exact congrArg (· >>= _) (periodStartChecked_eq c.ramp.period n)

theorem heldPacerChecked_eq (c : Course) : c.heldPacerChecked = .ok c.heldPacer := by
  unfold heldPacerChecked heldPacer
  cases c.loadDuration? with
  | none => rfl
  | some duration =>
      by_cases unset : c.hold.rate = 0
      · simp only [if_pos unset]
        rw [wholePeriodsChecked_eq duration c.ramp.period_ne_zero, ok_bind,
          Ramp.rateAfterChecked_eq, ok_bind]
        rfl
      · simp only [if_neg unset]

theorem planChecked_eq (c : Course) : c.planChecked = .ok c.plan := by
  unfold planChecked plan
  rw [heldPacerChecked_eq, ok_bind, constantAtChecked?_eq, ok_bind]
  cases begins : c.constantAt? with
  | none => rfl
  | some phaseStart =>
      simp only
      rw [(c.hitsWithChecked_eq _ _ phaseStart).1, ok_bind]
      rfl

/-! ## The pace -/

/-- At one hit per second or more there is a second at most between two hits. -/
theorem rampPaceChecked_eq {rate expected : Rat} (some_hits : 1 ≤ rate)
    (inRange : HitsInRange expected) (hits : UInt64) :
    rampPaceChecked rate expected hits = .ok (rampPace rate expected hits) := by
  have positive : 0 < rate := one_pos.trans_le some_hits
  have interval_nonneg : (0 : Rat) ≤ nanosPerSecond / rate := by positivity
  have interval_le : (nanosPerSecond : Rat) / rate ≤ 2 ^ 30 :=
    (div_le_self (by positivity) some_hits).trans (by norm_num [nanosPerSecond])
  have missing_le : |rounded (next hits).toNat - expected| ≤ 2 ^ 248 := by
    have count := rounded_word_le (next hits)
    have count_nonneg := rounded_word_nonneg (next hits)
    have hits_nonneg := inRange.nonneg
    have hits_le := inRange.le
    exact abs_le.mpr ⟨by linarith, by linarith⟩
  have wait_le : |rounded (nanosPerSecond / rate) *
      rounded (rounded (next hits).toNat - expected)| ≤ 2 ^ 278 := by
    rw [abs_mul, abs_of_nonneg (rounded_nonneg interval_nonneg)]
    calc rounded (nanosPerSecond / rate) * |rounded (rounded (next hits).toNat - expected)|
        ≤ 2 ^ 30 * 2 ^ 248 :=
          mul_le_mul (rounded_le_two_pow interval_le) (abs_rounded_le missing_le) (abs_nonneg _)
            (by positivity)
      _ = 2 ^ 278 := (pow_add 2 30 248).symm
  rw [rampPaceChecked, ratio_of_ne_zero positive.ne',
    double_of_le interval_nonneg interval_le (by decide), ok_bind, outOfRangeChecked_eq, ok_bind]
  unfold rampPace
  simp only [Nat.pos_iff_ne_zero, decide_eq_true_eq]
  rw [double_word, ok_bind, double_of_abs_le missing_le (by decide), ok_bind,
    double_of_abs_le wait_le (by decide), ok_bind]
  exact (apply_ite Except.ok _ _ _).symm

theorem onRampChecked_eq (c : Course) (plan : Plan) {expected : Rat}
    (inRange : HitsInRange expected) (elapsed : Span) (hits : UInt64) :
    c.onRampChecked plan expected elapsed hits =
      .ok (if c.rate plan elapsed ≤ 0 then .stop
        else rampPace (c.rate plan elapsed) expected hits) := by
  rw [onRampChecked, rateWithChecked_eq, ok_bind]
  by_cases still : c.rate plan elapsed ≤ 0
  · rw [if_pos still]
    exact if_pos still
  · rw [if_neg still]
    exact (if_neg still).trans (rampPaceChecked_eq (one_le_rateWith (not_le.mp still)) inRange hits)

theorem paceChecked_eq (c : Course) (plan : Plan) (elapsed : Span) (hits : UInt64) :
    c.paceChecked plan elapsed hits = .ok (c.pace plan elapsed hits) := by
  obtain ⟨due, inRange⟩ := c.expectedHitsChecked_eq plan elapsed
  rw [paceChecked, due, ok_bind]
  by_cases behind : hits < wholePart (c.expectedHits plan elapsed)
  · rw [pace_of_behind behind]
    exact if_pos behind
  · refine (if_neg behind).trans ?_
    cases begins : plan.constantAt? with
    | none =>
        rw [pace_before_phase (fun phaseStart other => by cases begins.symm.trans other) behind]
        exact c.onRampChecked_eq plan inRange elapsed hits
    | some phaseStart =>
        by_cases begun : phaseStart ≤ elapsed
        · rw [pace_in_phase begins begun behind]
          simp only [if_pos begun]
          by_cases none_held : plan.hold.rate = 0
          · simp only [if_pos none_held]
          · simp only [if_neg none_held]
            rw [Span.sinceChecked, keep_of_fits begun, ok_bind, ConstantPacer.paceChecked_eq]
        · rw [pace_before_phase (onRamp_of_lt begins (Nat.lt_of_not_le begun)) behind]
          simp only [if_neg begun]
          exact c.onRampChecked_eq plan inRange elapsed hits

end Course

/-! ## Pacers -/

namespace StepPacer

variable (p : StepPacer) (elapsed : Span) (hits : UInt64)

theorem planChecked_eq : p.planChecked = .ok p.ready.value := by
  unfold planChecked ready
  cases p.plan? with
  | none => exact p.course.planChecked_eq
  | some plan => rfl

theorem rateChecked_eq : p.rateChecked elapsed = .ok (p.rate elapsed).value := by
  rw [rateChecked, planChecked_eq, ok_bind, Course.rateWithChecked_eq]
  rfl

theorem paceChecked_eq : p.paceChecked elapsed hits = .ok (p.pace elapsed hits).value := by
  unfold paceChecked pace
  by_cases reached : ConstantPacer.capped p.cap hits = true
  · simp only [if_pos reached]
  · simp only [if_neg reached]
    rw [planChecked_eq, ok_bind, Course.paceChecked_eq]

end StepPacer

theorem LinearPacer.paceChecked_eq (p : LinearPacer) (elapsed : Span) (hits : UInt64) :
    p.paceChecked elapsed hits = .ok (p.pace elapsed hits).value := by
  unfold paceChecked pace
  by_cases reached : ConstantPacer.capped p.cap hits = true
  · simp only [if_pos reached]
  · simp only [if_neg reached]
    exact p.steps.paceChecked_eq elapsed hits

/-- No operation of a pacer fails, at any instant and for any number of hits: in checked
arithmetic the plan, the rate and the pace are those without bounds. -/
theorem Pacer.never_overflows (p : Pacer) (elapsed : Span) (hits : UInt64) :
    p.planChecked? = .ok p.plan?.value ∧
      p.rateChecked elapsed = .ok (p.rate elapsed).value ∧
      p.paceChecked elapsed hits = .ok (p.pace elapsed hits).value := by
  cases p with
  | constant c => exact ⟨rfl, c.rateChecked_eq, c.paceChecked_eq elapsed hits⟩
  | step s =>
      refine ⟨?_, s.rateChecked_eq elapsed, s.paceChecked_eq elapsed hits⟩
      rw [planChecked?, s.planChecked_eq]
      rfl
  | linear l =>
      refine ⟨?_, l.steps.rateChecked_eq elapsed, l.paceChecked_eq elapsed hits⟩
      rw [planChecked?, l.steps.planChecked_eq]
      rfl

end LoadShape.Pacing
