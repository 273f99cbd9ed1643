import LoadShape.Proofs.Pacing.StopFinal
import LoadShape.Proofs.Pacing.WholeSeconds

/-!
# The range of schedules on a ramp

A ramp takes the next hit to be past the range of schedules if all of the hits at the present
interval would be.  On a ramp that rises the hit is then past the range.  On one that falls most
of the hits were due at a shorter interval, and the run may end although the next hit is due well
within the range.
-/

namespace LoadShape.Pacing

open LoadShape.Number LoadShape.Time

namespace WholeSchedule

variable {s : WholeSchedule} {t sent more n m : Nat}

/-- The whole nanoseconds between two hits at the rate of second `t`. -/
def interval (s : WholeSchedule) (t : Nat) : Nat := nanosPerSecond / s.rate t

/-- When the hit after the first `sent` is due, at the rate of second `t`. -/
def dueNanos (s : WholeSchedule) (t sent : Nat) : Rat :=
  t * nanosPerSecond + nanosPerSecond / s.rate t * (sent + 1 - s.hits t)

/-- The least number of hits, not behind the schedule, that is more than there are intervals of
second `t` in the range of schedules. -/
def firstBeyond (s : WholeSchedule) (t : Nat) : Nat :=
  max (s.hits t) (scheduleEnd / s.interval t + 1)

theorem dueNanos_mono (le : sent ≤ more) : s.dueNanos t sent ≤ s.dueNanos t more := by
  have counts : (sent : Rat) ≤ more := by exact_mod_cast le
  unfold dueNanos
  gcongr

/-- So many hits can be counted. -/
theorem firstBeyond_le (hits_le : s.hits t ≤ 2 ^ 53) : s.firstBeyond t ≤ wordMax := by
  have intervals : scheduleEnd / s.interval t ≤ scheduleEnd := Nat.div_le_self _ _
  refine Nat.max_le.mpr ⟨le_wordMax_of_exact hits_le, ?_⟩
  exact (Nat.succ_le_succ intervals).trans (by decide)

/-! ## Ramps that rise -/

theorem rampRate_mono (rising : 0 ≤ s.step) (le : m ≤ n) : s.rampRate m ≤ s.rampRate n := by
  have steps : s.step * m ≤ s.step * n :=
    Int.mul_le_mul_of_nonneg_left (by exact_mod_cast le) rising
  exact Int.toNat_le_toNat (by omega)

/-- Periods at no more than some rate have no more hits than at that rate. -/
theorem hitsOfPeriods_le {rate : Nat} (slower : ∀ k < n, s.periodRate k ≤ rate) :
    s.hitsOfPeriods n ≤ s.period * n * rate := by
  induction n with
  | zero => exact Nat.zero_le _
  | succ n ih =>
      have before := ih fun k below => slower k (Nat.lt_succ_of_lt below)
      have last := Nat.mul_le_mul_left s.period (slower n (Nat.lt_succ_self n))
      calc s.hitsOfPeriods (n + 1) ≤ s.period * n * rate + s.period * rate :=
            Nat.add_le_add before last
        _ = s.period * (n + 1) * rate := by rw [Nat.mul_add_one, Nat.add_mul]

/-- While a ramp rises, no more hits are due than at its present rate. -/
theorem hits_le_of_rising (positive : 0 < s.period) (rising : 0 ≤ s.step)
    (early : ¬ s.Begun t) : s.hits t ≤ t * s.rate t := by
  have present : s.rate t = s.rampRate (t / s.period) := rate_of_not_begun early
  have slower : ∀ k ≤ t / s.period, s.periodRate k ≤ s.rate t := by
    intro k le
    have start_le : k * s.period ≤ t :=
      (Nat.mul_le_mul_right _ le).trans (Nat.div_mul_le_self _ _)
    rw [periodRate_of_not_begun positive fun begun => early (begun.mono start_le), present]
    exact rampRate_mono rising le
  have presentRate_le : s.presentRate t ≤ s.rate t := by
    unfold presentRate
    split
    · exact slower 0 (Nat.zero_le _)
    · exact Nat.le_refl _
  calc s.hits t
      ≤ s.period * (t / s.period) * s.rate t + t % s.period * s.rate t :=
        Nat.add_le_add (hitsOfPeriods_le fun k below => slower k below.le)
          (Nat.mul_le_mul_left _ presentRate_le)
    _ = t * s.rate t := by rw [← Nat.add_mul, Nat.div_add_mod]

/-- If no more hits are due than at the present rate, then one that comes after more hits than
there are present intervals in the range is due past its end. -/
theorem scheduleEnd_lt_dueNanos (positive : 0 < s.rate t) (due_le : s.hits t ≤ t * s.rate t)
    (between : s.interval t ≠ 0) (beyond : scheduleEnd / s.interval t < sent) :
    scheduleEnd < s.dueNanos t sent := by
  have rate_pos : (0 : Rat) < s.rate t := by exact_mod_cast positive
  have due_le_rat : (s.hits t : Rat) ≤ t * s.rate t := by exact_mod_cast due_le
  have past : scheduleEnd < s.interval t * (sent + 1) :=
    (Nat.lt_mul_div_succ scheduleEnd (Nat.pos_of_ne_zero between)).trans_le
      (Nat.mul_le_mul_left _ (by omega))
  have whole : (s.interval t : Rat) ≤ nanosPerSecond / s.rate t := Nat.cast_div_le
  calc (scheduleEnd : Rat) < s.interval t * (sent + 1) := by exact_mod_cast past
    _ ≤ nanosPerSecond / s.rate t * (sent + 1) := by gcongr
    _ = t * nanosPerSecond + nanosPerSecond / s.rate t * (sent + 1 - t * s.rate t) := by
        field_simp
        ring
    _ ≤ s.dueNanos t sent := by
        unfold dueNanos
        gcongr

end WholeSchedule

/-! ## Stops -/

/-- At an exact rate the interval between two hits is rounded down to whole nanoseconds. -/
theorem rampInterval_natCast {rate : Nat} (positive : 0 < rate) (exact : rate ≤ 2 ^ 53) :
    rampInterval rate = nanosPerSecond / rate := by
  have whole : wholePart (rounded (nanosPerSecond / rate)) = saturate (nanosPerSecond / rate) := by
    by_cases slow : rate ≤ nanosPerSecond
    · have power : 2 ^ rate.log2 ≤ rate := Nat.log2_self_le positive.ne'
      refine wholePart_rounded_div (k := rate.log2 + 1) positive Nat.lt_log2_self.le ?_
      calc (nanosPerSecond / rate + 1) * 2 ^ (rate.log2 + 1)
          ≤ (nanosPerSecond / rate + 1) * (rate * 2) := by
            rw [Nat.pow_succ]
            gcongr
        _ = (nanosPerSecond / rate * rate + rate) * 2 := by ring
        _ ≤ (nanosPerSecond + nanosPerSecond) * 2 := by
            gcongr
            exact Nat.div_mul_le_self _ _
        _ ≤ 2 ^ 53 := by decide
    · refine wholePart_rounded_div positive exact ?_
      rw [Nat.div_eq_of_lt (not_le.mp slow), Nat.zero_add, Nat.one_mul]
  have small : nanosPerSecond / rate ≤ wordMax := (Nat.div_le_self _ _).trans (by decide)
  rw [rampInterval, whole, toNat_saturate, Nat.min_eq_left small]

namespace Course

variable {c : Course} {t : Nat} {hits : UInt64}

theorem not_begun_of_onRamp (small : t ≤ wordMax) (onRamp : OnRamp c.plan (wholeSeconds t)) :
    ¬ c.wholeSchedule.Begun t := by
  rw [begun_iff small]
  rintro ⟨phaseStart, begins, begun⟩
  exact absurd (Span.le_iff.mp begun) (Nat.not_le.mpr (onRamp phaseStart begins))

/-- On an exact ramp a caller that is not behind is told to stop if it has sent more hits than
there are present intervals in the range. -/
theorem pace_on_exact_ramp (exact : c.ExactAt t) (onRamp : OnRamp c.plan (wholeSeconds t))
    (positive : 0 < c.wholeSchedule.rate t) (rate_le : c.wholeSchedule.rate t ≤ 2 ^ 53)
    (enough : c.wholeSchedule.hits t ≤ hits.toNat) :
    c.pace c.plan (wholeSeconds t) hits = .stop ↔
      c.wholeSchedule.interval t ≠ 0 ∧
        scheduleEnd / c.wholeSchedule.interval t < hits.toNat := by
  have rate : c.rate c.plan (wholeSeconds t) = c.wholeSchedule.rate t :=
    exact.rateWith_eq exact.seconds_le rate_le
  have not_behind : ¬ hits < wholePart (c.expectedHits c.plan (wholeSeconds t)) := by
    rw [UInt64.lt_iff_toNat_lt, exact.wholePart_expectedHits]
    exact not_lt.mpr enough
  have still : ¬ (c.wholeSchedule.rate t : Rat) ≤ 0 := by
    rw [not_le]
    exact_mod_cast positive
  rw [pace_on_ramp onRamp not_behind, rate, rampInterval_natCast positive rate_le]
  exact or_iff_right still

end Course

namespace Pacer

/-- With at most `limit` hits, none of them owed, nobody is told to stop after `t` seconds unless
the next hit is due past the range of schedules, or a cap is reached. -/
def StopsOnlyPastRange (p : Pacer) (schedule : WholeSchedule) (t limit : Nat) : Prop :=
  ∀ hits, p.capped hits = false → schedule.hits t ≤ hits.toNat → hits.toNat ≤ limit →
    (p.pace (wholeSeconds t) hits).value = .stop → scheduleEnd < schedule.dueNanos t hits.toNat

/-- While a ramp goes on at a rate above zero, a caller that is not behind is told to stop as soon
as its hits are more than the present intervals in the range of schedules.  If the ramp rises,
then the next hit is past the range.  In general all stops are for such hits exactly if the hit
after the fewest with which there is a stop is past the range, or no caller is ever stopped for
so many: there is no whole nanosecond between two hits, or they are over the limit or the cap. -/
theorem stopsOnlyPastRange_iff {p : Pacer} (built : p.Built) {course : Course} {plan : Plan}
    (planned : p.planned? = some (course, plan)) {t : Nat} (exact : course.ExactAt t)
    (onRamp : Course.OnRamp plan (wholeSeconds t)) (positive : 0 < course.wholeSchedule.rate t)
    (rate_le : course.wholeSchedule.rate t ≤ 2 ^ 53) :
    let schedule := course.wholeSchedule
    (∀ hits, p.capped hits = false → schedule.hits t ≤ hits.toNat →
        ((p.pace (wholeSeconds t) hits).value = .stop ↔
          schedule.interval t ≠ 0 ∧ scheduleEnd / schedule.interval t < hits.toNat)) ∧
      (course.ramp.rising = true → ∀ limit, p.StopsOnlyPastRange schedule t limit) ∧
      ∀ limit, p.StopsOnlyPastRange schedule t limit ↔
        schedule.interval t = 0 ∨ limit < schedule.firstBeyond t ∨
          p.capped (saturate (schedule.firstBeyond t)) = true ∨
          scheduleEnd < schedule.dueNanos t (schedule.firstBeyond t) := by
  intro schedule
  have followed : plan = course.plan := built.plan_eq planned
  subst followed
  have stops : ∀ hits, p.capped hits = false → schedule.hits t ≤ hits.toNat →
      ((p.pace (wholeSeconds t) hits).value = .stop ↔
        schedule.interval t ≠ 0 ∧ scheduleEnd / schedule.interval t < hits.toNat) := by
    intro hits below enough
    rw [pace_of_planned planned below]
    exact Course.pace_on_exact_ramp exact onRamp positive rate_le enough
  refine ⟨stops, ?_, fun limit => ⟨?_, ?_⟩⟩
  · intro rising limit hits below enough _ stopped
    have upward : 0 ≤ schedule.step := by
      have step_pos : (0 : Int) < course.ramp.step.toInt := by
        simpa [Ramp.rising, Int64.lt_iff_toInt_lt] using rising
      exact step_pos.le
    have early := Course.not_begun_of_onRamp exact.le_wordMax onRamp
    obtain ⟨between, beyond⟩ := (stops hits below enough).mp stopped
    exact WholeSchedule.scheduleEnd_lt_dueNanos positive
      (WholeSchedule.hits_le_of_rising exact.period_pos upward early) between beyond
  · intro only_past
    by_contra in_range
    simp only [not_or, Nat.not_lt, Bool.not_eq_true] at in_range
    obtain ⟨between, within_limit, below, due⟩ := in_range
    have count : (saturate (schedule.firstBeyond t)).toNat = schedule.firstBeyond t := by
      rw [toNat_saturate]
      exact Nat.min_eq_left (WholeSchedule.firstBeyond_le exact.hits_le)
    have enough : schedule.hits t ≤ (saturate (schedule.firstBeyond t)).toNat := by
      rw [count]
      exact Nat.le_max_left _ _
    have beyond :
        scheduleEnd / schedule.interval t < (saturate (schedule.firstBeyond t)).toNat := by
      rw [count]
      exact Nat.le_max_right _ _
    have past := only_past _ below enough (by rwa [count])
      ((stops _ below enough).mpr ⟨between, beyond⟩)
    rw [count] at past
    exact due past
  · intro reasons hits below enough within_limit stopped
    obtain ⟨between, beyond⟩ := (stops hits below enough).mp stopped
    have first_le : schedule.firstBeyond t ≤ hits.toNat := Nat.max_le.mpr ⟨enough, beyond⟩
    rcases reasons with none_between | exceeded | reached | past
    · exact absurd none_between between
    · exact absurd (first_le.trans within_limit) (Nat.not_le.mpr exceeded)
    · have le : saturate (schedule.firstBeyond t) ≤ hits := by
        rw [UInt64.le_iff_toNat_le, toNat_saturate]
        exact (Nat.min_le_left _ _).trans first_le
      rw [capped_mono le reached] at below
      cases below
    · exact past.trans_le (WholeSchedule.dueNanos_mono first_le)

/-- From one hit per second up by one every second.  After two seconds three are due and the
interval is a third of a second; whoever is stopped then has sent so many that the next one is
past the range. -/
theorem stopsOnlyPastRange_rising :
    let course : Course := { ramp := ⟨1, 1, .ofSeconds 1, by decide, by decide, by decide⟩ }
    let p : Pacer := .step { course }
    (p.Built ∧ course.ExactAt 2) ∧ p.StopsOnlyPastRange course.wholeSchedule 2 wordMax ∧
      (p.pace (wholeSeconds 2) 27670116138).value ≠ .stop ∧
      (p.pace (wholeSeconds 2) 27670116139).value = .stop := by
  intro course p
  have made : StepPacer.make 1 1 (.ofSeconds 1) = .ok { course } := rfl
  have built : p.Built := Built.step made
  have planned : p.planned? = some (course, course.plan) := rfl
  have exact : course.ExactAt 2 :=
    { period_whole := by decide +kernel
      duration_whole := fun duration set => nomatch set
      start_le := by decide +kernel
      in_range := by decide +kernel
      hits_le := by decide +kernel }
  have onRamp : Course.OnRamp course.plan (wholeSeconds 2) :=
    fun phaseStart begins => nomatch begins
  obtain ⟨stops, only_past, -⟩ :=
    stopsOnlyPastRange_iff built planned exact onRamp (by decide) (by decide)
  refine ⟨⟨built, exact⟩, only_past (by decide) wordMax, ?_, ?_⟩
  · rw [ne_eq, stops _ rfl (by decide)]
    decide
  · rw [stops _ rfl (by decide)]
    decide

/-- From a million hits per second down to one after ten thousand seconds.  The run of a worker
that has then sent all that is due ends there, although its next hit is due a second later. -/
theorem stopped_within_range :
    let course : Course :=
      { ramp := ⟨1000000, -999999, .ofSeconds 10000, by decide, by decide, by decide⟩ }
    let p : Pacer := .step { course }
    p.planned? = some (course, course.plan) ∧ course.plan.constantAt? = none ∧
      course.wholeSchedule.rate 10000 = 1 ∧ course.wholeSchedule.hits 10000 = 10000000000 ∧
      (p.pace (.ofSeconds 10000) 10000000000).value = .stop ∧
      course.wholeSchedule.dueNanos 10000 10000000000 = 10001000000000 ∧
      ¬ (scheduleEnd : Rat) < course.wholeSchedule.dueNanos 10000 10000000000 := by
  decide +kernel

end Pacer

end LoadShape.Pacing
