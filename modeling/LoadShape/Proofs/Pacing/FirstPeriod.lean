import LoadShape.Proofs.Pacing.StopFinal
import LoadShape.Proofs.Pacing.WholeSeconds
import Mathlib.Data.Nat.Cast.Field

/-!
# The first period of a ramp

Before its first step a ramp counts the hits that are due at its start rate.  If that rate leaves
whole nanoseconds between two hits, then the ramp, which measures the hits that are missing, and
a constant pacer, which measures the time from the beginning, come to the same answer.
-/

namespace LoadShape.Pacing

open LoadShape.Number LoadShape.Time

/-! ## Rates that divide a second -/

namespace ConstantPacer

variable {p : ConstantPacer} {elapsed : Span} {hits : UInt64}

theorem rate_pos_of_divides (divides : p.rate.toNat ∣ nanosPerSecond) : 0 < p.rate.toNat :=
  Nat.pos_of_dvd_of_pos divides (by decide)

theorem interval_pos_of_divides (divides : p.rate.toNat ∣ nanosPerSecond) : 0 < p.interval :=
  Nat.div_pos (Nat.le_of_dvd (by decide) divides) (rate_pos_of_divides divides)

/-- The interval of a rate that divides a second is not rounded. -/
theorem rounded_interval (divides : p.rate.toNat ∣ nanosPerSecond) :
    rounded ((nanosPerSecond : Rat) / p.rate.toNat) = p.interval := by
  have positive : (p.rate.toNat : Rat) ≠ 0 := by
    exact_mod_cast (rate_pos_of_divides divides).ne'
  have small : p.interval ≤ 2 ^ 53 := (Nat.div_le_self _ _).trans (by decide)
  rw [← Nat.cast_div divides positive]
  exact rounded_natCast small

/-- After whole seconds, when all that is due has been sent, the missing hits take as long as it
is until the next one is due. -/
theorem rampPace_of_divides (divides : p.rate.toNat ∣ nanosPerSecond)
    (whole : elapsed.subseconds = 0) (enough : p.rate.toNat * elapsed.seconds ≤ hits.toNat)
    (exact : (hits.toNat + 1) * p.interval ≤ 2 ^ 53) :
    Course.rampPace p.rate.toNat (p.rate.toNat * elapsed.seconds : Nat) hits =
      if 0 < p.interval ∧ scheduleEnd / p.interval < hits.toNat then .stop
      else .after (.ofNanos (p.dueNanos hits) - elapsed) := by
  have between := interval_pos_of_divides divides
  have interval_le : p.interval ≤ wordMax := (Nat.div_le_self _ _).trans (by decide)
  have count_le : hits.toNat + 1 ≤ 2 ^ 53 := (Nat.le_mul_of_pos_right _ between).trans exact
  have next_hits : (next hits).toNat = hits.toNat + 1 := by
    rw [toNat_next, Nat.min_eq_left (le_wordMax_of_exact count_le)]
  obtain ⟨missing, count⟩ := Nat.exists_eq_add_of_le (enough.trans (Nat.le_add_right _ 1))
  have missing_eq : rounded (rounded (next hits).toNat - (p.rate.toNat * elapsed.seconds : Nat)) =
      missing := by
    have missing_le : missing ≤ 2 ^ 53 := by omega
    rw [next_hits, rounded_natCast count_le, count, Nat.cast_add, add_sub_cancel_left,
      rounded_natCast missing_le]
  -- the seconds that have passed are as many intervals as hits were due in them
  have due : p.dueNanos hits = elapsed.nanos + p.interval * missing := by
    rw [dueNanos, next_hits, count, nanos_of_whole whole, Nat.add_mul, Nat.mul_right_comm,
      interval, Nat.mul_div_cancel' divides, Nat.mul_comm, Nat.mul_comm missing]
  have due_le : p.dueNanos hits ≤ 2 ^ 53 := by rwa [dueNanos, next_hits]
  have wait_le : p.interval * missing ≤ 2 ^ 53 := by omega
  have wait_eq : Span.ofNanos (p.interval * missing) = .ofNanos (p.dueNanos hits) - elapsed := by
    have limit : 2 ^ 53 < spanLimit := by decide
    refine Span.ext ?_
    rw [Span.nanos_sub, Span.nanos_ofNanos (due_le.trans_lt limit),
      Span.nanos_ofNanos (wait_le.trans_lt limit), due, Nat.add_sub_cancel_left]
  unfold Course.rampPace
  simp only [rounded_interval divides, missing_eq, wholePart_natCast, toNat_saturate,
    rounded_mul_natCast wait_le, Nat.min_eq_left interval_le,
    Nat.min_eq_left (le_wordMax_of_exact wait_le), Nat.pos_iff_ne_zero, wait_eq]

end ConstantPacer

/-! ## Before the first step -/

namespace Course

variable {c : Course} {plan : Plan} {elapsed : Span} {hits : UInt64}

theorem wholePeriods_of_first (first : elapsed < c.ramp.period) :
    (wholePeriods elapsed c.ramp.period).toNat = 0 := by
  have before : elapsed.nanos < c.ramp.period.nanos * 1 := by
    rw [Nat.mul_one]
    exact Span.lt_iff.mp first
  exact Nat.lt_one_iff.mp (wholePeriods_lt before)

theorem rate_of_first (first : elapsed < c.ramp.period) (onRamp : OnRamp plan elapsed)
    (start_le : c.ramp.start.toNat ≤ 2 ^ 53) : c.rate plan elapsed = c.ramp.start.toNat := by
  have start_small : (c.ramp.start.toNat : Int) + c.ramp.step.toInt * (0 : Nat) ≤ 2 ^ 53 := by
    rw [Nat.cast_zero, Int.mul_zero, Int.add_zero]
    exact_mod_cast start_le
  rw [rate_on_ramp onRamp, Ramp.rateAt_eq, wholePeriods_of_first first,
    Ramp.rateOfPeriods_eq start_le (Nat.zero_le _) start_small, Nat.cast_zero, Int.mul_zero,
    Int.add_zero, Int.toNat_natCast]

/-- In the first period the hits are due at the start rate, whatever comes after it. -/
theorem expectedHits_of_first (first : elapsed < c.ramp.period) (whole : elapsed.subseconds = 0)
    (start_le : c.ramp.start.toNat ≤ 2 ^ 53)
    (due_le : c.ramp.start.toNat * elapsed.seconds ≤ 2 ^ 53) :
    c.expectedHits plan elapsed = (c.ramp.start.toNat * elapsed.seconds : Nat) := by
  have seconds_le := (Nat.le_mul_of_pos_left elapsed.seconds c.start_pos).trans due_le
  rw [Nat.mul_comm] at due_le ⊢
  simp only [expectedHits, hitsWith, wholePeriods_of_first first, if_true,
    roundedSeconds_of_whole whole seconds_le, rounded_natCast start_le]
  exact rounded_mul_natCast due_le

/-- Before its first step a ramp answers as a constant pacer of its start rate. -/
theorem pace_of_first (first : elapsed < c.ramp.period) (onRamp : OnRamp plan elapsed)
    (divides : c.ramp.start.toNat ∣ nanosPerSecond) (whole : elapsed.subseconds = 0)
    (due_le : c.ramp.start.toNat * elapsed.seconds ≤ 2 ^ 53)
    (exact : (hits.toNat + 1) * (nanosPerSecond / c.ramp.start.toNat) ≤ 2 ^ 53) :
    c.pace plan elapsed hits = ConstantPacer.pace { rate := c.ramp.start } elapsed hits := by
  let p : ConstantPacer := { rate := c.ramp.start }
  have limited : p.rate ≠ 0 := c.ramp.start_ne_zero
  have start_le : c.ramp.start.toNat ≤ 2 ^ 53 :=
    (Nat.le_of_dvd (by decide) divides).trans (by decide)
  have due : c.expectedHits plan elapsed = (c.ramp.start.toNat * elapsed.seconds : Nat) :=
    expectedHits_of_first first whole start_le due_le
  have owed : p.owed elapsed = c.ramp.start.toNat * elapsed.seconds :=
    Nat.min_eq_left (le_wordMax_of_exact due_le)
  have behind_iff : hits < wholePart (c.expectedHits plan elapsed) ↔ p.Behind elapsed hits := by
    rw [due, wholePart_natCast, UInt64.lt_iff_toNat_lt, toNat_saturate, ConstantPacer.Behind, owed,
      Nat.min_eq_left (le_wordMax_of_exact due_le)]
  by_cases behind : p.Behind elapsed hits
  · rw [pace_of_behind (behind_iff.mpr behind), ConstantPacer.pace_of_behind rfl limited behind]
  · have enough : c.ramp.start.toNat * elapsed.seconds ≤ hits.toNat := by
      rw [ConstantPacer.Behind, owed] at behind
      exact not_lt.mp behind
    have still : ¬ (c.ramp.start.toNat : Rat) ≤ 0 := by
      rw [not_le]
      exact_mod_cast c.start_pos
    rw [pace_before_phase onRamp (mt behind_iff.mp behind), rate_of_first first onRamp start_le,
      if_neg still, due, ConstantPacer.rampPace_of_divides (p := p) divides whole enough exact,
      ConstantPacer.pace_of_enough rfl limited behind]

end Course

/-! ## Pacers -/

namespace Pacer

/-- Until its first step, and until its constant phase if that begins sooner, a ramp without a cap
tells a worker what a constant pacer of its start rate does: to send the next hit at once, to wait
for as long, or to stop.  The rate divides a second into whole nanoseconds, and the hits and the
time until the next one take no more than 53 bits. -/
theorem paced_as_start_rate {p : Pacer} {hits : UInt64} (uncapped : p.capped hits = false)
    {course : Course} {plan : Plan} (planned : p.planned? = some (course, plan)) {elapsed : Span}
    (first : elapsed < course.ramp.period) (onRamp : Course.OnRamp plan elapsed)
    (divides : course.ramp.start.toNat ∣ nanosPerSecond) (whole : elapsed.subseconds = 0)
    (due_le : course.ramp.start.toNat * elapsed.seconds ≤ 2 ^ 53)
    (exact : (hits.toNat + 1) * (nanosPerSecond / course.ramp.start.toNat) ≤ 2 ^ 53) :
    (p.pace elapsed hits).value =
      ConstantPacer.pace { rate := course.ramp.start } elapsed hits := by
  rw [pace_of_planned planned uncapped]
  exact Course.pace_of_first first onRamp divides whole due_le exact

/-- At four hits per second the worker with 27 hits is behind after seven seconds, and the one
with 28 waits for a quarter of a second. -/
theorem paced_as_start_rate_quarter :
    let p : Pacer := .step { course := { ramp := ⟨4, 3, .ofSeconds 10, by decide, by decide,
      by decide⟩ } }
    (p.pace (.ofSeconds 7) 27).value = .now ∧
      (p.pace (.ofSeconds 7) 28).value = .after (.ofNanos 250000000) := by
  intro p
  have planned : ∃ course plan, p.planned? = some (course, plan) ∧ course.ramp.start = 4 ∧
      (.ofSeconds 7 : Span) < course.ramp.period ∧ Course.OnRamp plan (.ofSeconds 7) :=
    ⟨_, _, rfl, rfl, by decide, fun phaseStart begins => by cases begins⟩
  obtain ⟨course, plan, planned, start, first, onRamp⟩ := planned
  have divides : course.ramp.start.toNat ∣ nanosPerSecond := by
    rw [start]
    decide
  have due_le : course.ramp.start.toNat * (Span.ofSeconds 7).seconds ≤ 2 ^ 53 := by
    rw [start]
    decide
  constructor
  · rw [paced_as_start_rate rfl planned first onRamp divides rfl due_le (by rw [start]; decide),
      start]
    decide
  · rw [paced_as_start_rate rfl planned first onRamp divides rfl due_le (by rw [start]; decide),
      start]
    decide

end Pacer

end LoadShape.Pacing
