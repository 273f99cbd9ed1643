import LoadShape.Time.Span
import Mathlib.Algebra.BigOperators.Group.Finset.Basic
import Mathlib.Order.Nat
import Mathlib.Tactic.Push

/-!
# Schedules in whole seconds

The rates and the hits of a ramp as whole numbers, at whole seconds.  The hits due grow with
time, except where the constant phase begins in the middle of a period: the part of the
period that has passed is then counted at the rate that is held, and at the end of the period
all of it is counted at the rate of its start.
-/

namespace LoadShape.Pacing

open LoadShape.Time

/-- A ramp from `start` by `step` after every `period` seconds, which holds the rate `held`
from the second on with which its constant phase begins, if it has one. -/
structure WholeSchedule where
  start : Nat
  step : Int
  period : Nat
  phase? : Option Nat
  held : Nat
  deriving DecidableEq, Repr

namespace WholeSchedule

variable (s : WholeSchedule)

/-- The constant phase has begun. -/
def Begun (t : Nat) : Prop := ∃ phase ∈ s.phase?, phase ≤ t

instance (t : Nat) : Decidable (s.Begun t) :=
  inferInstanceAs (Decidable (∃ phase ∈ s.phase?, phase ≤ t))

/-- The rate of the ramp after `n` periods. -/
def rampRate (n : Nat) : Nat := (s.start + s.step * n).toNat

/-- The rate at second `t`. -/
def rate (t : Nat) : Nat := if s.Begun t then s.held else s.rampRate (t / s.period)

/-- The rate at which period number `n` is counted once it has passed. -/
def periodRate (n : Nat) : Nat := if n = 0 then s.start else s.rate (n * s.period)

/-- The hits due in the first `n` periods. -/
def hitsOfPeriods : Nat → Nat
  | 0 => 0
  | n + 1 => hitsOfPeriods n + s.period * s.periodRate n

/-- The rate at which the present period is counted at second `t`. -/
def presentRate (t : Nat) : Nat := if t / s.period = 0 then s.start else s.rate t

/-- The hits due by second `t`. -/
def hits (t : Nat) : Nat :=
  s.hitsOfPeriods (t / s.period) + t % s.period * s.presentRate t

/-- The constant phase begins in the middle of a period that is not the first. -/
def SplitAt (phase : Nat) : Prop :=
  phase ∈ s.phase? ∧ s.period ≤ phase ∧ phase % s.period ≠ 0

/-- The seconds of the present period are due fewer hits at the rate of the constant phase, which
begins now, than all but the last of them were at the rate of the ramp. -/
def Drops (phase : Nat) : Prop :=
  s.period ≤ phase ∧
    phase % s.period * s.held < (phase % s.period - 1) * s.rampRate (phase / s.period)

instance (phase : Nat) : Decidable (s.Drops phase) := inferInstanceAs (Decidable (_ ∧ _))

/-- By the second `horizon` the constant phase has begun with a drop of the hits due.  At a rate
of zero nobody waits for the hits that are left out, nor at more than a hit per nanosecond. -/
def Forgets (horizon : Nat) : Prop :=
  0 < s.held ∧ s.held ≤ nanosPerSecond ∧ ∃ phase ∈ s.phase?, phase ≤ horizon ∧ s.Drops phase

instance (horizon : Nat) : Decidable (s.Forgets horizon) := inferInstanceAs (Decidable (_ ∧ _))

variable {s} {t later n phase : Nat}

theorem begun_iff (begins : phase ∈ s.phase?) : s.Begun t ↔ phase ≤ t := by
  simp [Begun, Option.mem_def.mp begins]

theorem Begun.mono (begun : s.Begun t) (le : t ≤ later) : s.Begun later := by
  obtain ⟨phase, begins, before⟩ := begun
  exact ⟨phase, begins, Nat.le_trans before le⟩

theorem rate_of_begun (begun : s.Begun t) : s.rate t = s.held := if_pos begun

theorem rate_of_not_begun (early : ¬ s.Begun t) : s.rate t = s.rampRate (t / s.period) :=
  if_neg early

theorem presentRate_of_period_le (positive : 0 < s.period) (le : s.period ≤ t) :
    s.presentRate t = s.rate t :=
  if_neg (Nat.div_pos le positive).ne'

theorem rampRate_zero : s.rampRate 0 = s.start := by simp [rampRate]

/-- Until the constant phase begins a period is counted at the rate of the ramp. -/
theorem periodRate_of_not_begun (positive : 0 < s.period) (early : ¬ s.Begun (n * s.period)) :
    s.periodRate n = s.rampRate n := by
  unfold periodRate
  split
  · next first => rw [first, rampRate_zero]
  · rw [rate_of_not_begun early, Nat.mul_div_cancel _ positive]

theorem hitsOfPeriods_one : s.hitsOfPeriods 1 = s.period * s.start := Nat.zero_add _

theorem hitsOfPeriods_succ (positive : 0 < n) :
    s.hitsOfPeriods (n + 1) = s.hitsOfPeriods n + s.rate (n * s.period) * s.period := by
  rw [hitsOfPeriods, periodRate, if_neg positive.ne', Nat.mul_comm s.period]

/-- In the first period the hits are due at the start rate. -/
theorem hits_of_first (first : t / s.period = 0) : s.hits t = t * s.start := by
  have whole := Nat.div_add_mod t s.period
  rw [first, Nat.mul_zero, Nat.zero_add] at whole
  rw [hits, presentRate, if_pos first, first, whole]
  exact Nat.zero_add _

/-- Later on the part of the present period is counted at the rate of the time. -/
theorem hits_of_later (later : t / s.period ≠ 0) :
    s.hits t = s.hitsOfPeriods (t / s.period) + t % s.period * s.rate t := by
  rw [hits, presentRate, if_neg later]

/-! ## One second more -/

/-- While the rate of the present period stays the same, a second adds the hits of that rate. -/
theorem hits_succ_of_same_rate
    (counted : s.presentRate t = s.periodRate (t / s.period))
    (same : (t + 1) / s.period = t / s.period → s.presentRate (t + 1) = s.presentRate t) :
    s.hits (t + 1) = s.hits t + s.presentRate t := by
  have split : s.period * (t / s.period) + t % s.period = t := Nat.div_add_mod t s.period
  have split_next := Nat.div_add_mod (t + 1) s.period
  by_cases last : (t + 1) % s.period = 0
  · have quotient := Nat.succ_div_of_mod_eq_zero last
    have full : s.period = t % s.period + 1 := by
      rw [quotient, last, Nat.mul_add_one] at split_next
      omega
    have period_hits : s.period * s.presentRate t =
        t % s.period * s.presentRate t + s.presentRate t := by
      rw [← Nat.add_one_mul, ← full]
    rw [hits, hits, quotient, last, hitsOfPeriods, ← counted, period_hits, Nat.zero_mul,
      Nat.add_zero, Nat.add_assoc]
  · have quotient := Nat.succ_div_of_mod_ne_zero last
    have next : (t + 1) % s.period = t % s.period + 1 := by
      rw [quotient] at split_next
      omega
    rw [hits, hits, quotient, next, same quotient, Nat.add_one_mul, Nat.add_assoc]

/-- A second adds hits unless the constant phase has split the period. -/
theorem hits_le_succ (positive : 0 < s.period)
    (clear : ∀ phase, s.SplitAt phase → phase / s.period = t / s.period → t + 1 < phase) :
    s.hits t ≤ s.hits (t + 1) := by
  have split := Nat.div_add_mod t s.period
  have remainder : t % s.period < s.period := Nat.mod_lt t positive
  -- A phase that begins inside the period, which is not the first, would split it.
  have outside : t / s.period ≠ 0 → ∀ phase, s.phase? = some phase → phase ≤ t + 1 →
      phase / s.period = t / s.period → phase ≤ t / s.period * s.period := by
    intro later_period phase begins le period
    have start : phase % s.period = 0 := by
      by_contra inside
      have full : s.period ≤ phase := by
        by_contra less
        exact later_period (period ▸ Nat.div_eq_of_lt (not_le.mp less))
      exact absurd (clear phase ⟨begins, full, inside⟩ period) (not_lt.mpr le)
    have whole := Nat.div_add_mod phase s.period
    rw [start, Nat.add_zero, period, Nat.mul_comm] at whole
    exact whole.ge
  have start_le : t / s.period * s.period ≤ t := Nat.div_mul_le_self t s.period
  refine (Nat.le_add_right _ _).trans_eq (hits_succ_of_same_rate ?_ ?_).symm
  · unfold presentRate periodRate
    split_ifs with first
    · rfl
    · have begun : s.Begun t ↔ s.Begun (t / s.period * s.period) := by
        refine ⟨fun ⟨phase, begins, le⟩ => ⟨phase, begins, ?_⟩, fun early => early.mono start_le⟩
        by_contra inside
        have period : phase / s.period = t / s.period :=
          le_antisymm (Nat.div_le_div_right le)
            ((Nat.le_div_iff_mul_le positive).mpr (not_le.mp inside).le)
        exact inside (outside first phase begins (by omega) period)
      rw [rate, rate, Nat.mul_div_cancel _ positive]
      simp only [begun]
  · intro quotient
    unfold presentRate
    rw [quotient]
    split_ifs with first
    · rfl
    · have begun : s.Begun (t + 1) ↔ s.Begun t := by
        refine ⟨fun ⟨phase, begins, le⟩ => ⟨phase, begins, ?_⟩, fun early => early.mono (by omega)⟩
        by_contra now
        have next : phase = t + 1 := by omega
        have before := outside first phase begins le (by rw [next, quotient])
        omega
      rw [rate, rate, quotient]
      simp only [begun]

/-- The hits due grow over a time in which no period is split. -/
theorem hits_mono (positive : 0 < s.period) (le : t ≤ later)
    (clear : ∀ phase, s.SplitAt phase → later < phase ∨ phase / s.period < t / s.period) :
    s.hits t ≤ s.hits later := by
  induction later, le using Nat.le_induction with
  | base => exact le_refl _
  | succ n le ih =>
      have sooner : s.hits t ≤ s.hits n :=
        ih fun phase split => (clear phase split).imp_left fun less => by omega
      refine sooner.trans (hits_le_succ positive fun phase split period => ?_)
      refine (clear phase split).resolve_right (not_lt.mpr ?_)
      exact period ▸ Nat.div_le_div_right le

/-! ## Steady schedules -/

/-- The constant phase begins after some time, and with a period or at the rate that the ramp
has then. -/
def Steady (s : WholeSchedule) : Prop :=
  ∀ phase ∈ s.phase?, 0 < phase ∧
    (phase % s.period = 0 ∨ s.held = s.rampRate (phase / s.period))

namespace Steady

variable (steady : s.Steady)
include steady

/-- The rate is the same throughout a period. -/
theorem rate_eq (positive : 0 < s.period) (t : Nat) : s.rate t = s.periodRate (t / s.period) := by
  by_cases begun : s.Begun t
  · obtain ⟨phase, begins, le⟩ := begun
    obtain ⟨some_time, boundary_or_reached⟩ := steady phase begins
    rw [rate_of_begun ((begun_iff begins).mpr le)]
    by_cases before : phase ≤ t / s.period * s.period
    · have later : t / s.period ≠ 0 := by
        intro first
        rw [first, Nat.zero_mul] at before
        omega
      rw [periodRate, if_neg later, rate_of_begun ((begun_iff begins).mpr before)]
    · have same : phase / s.period = t / s.period :=
        le_antisymm (Nat.div_le_div_right le)
          ((Nat.le_div_iff_mul_le positive).mpr (not_le.mp before).le)
      have inside : phase % s.period ≠ 0 := by
        intro start
        have whole := Nat.div_add_mod' phase s.period
        rw [start, same] at whole
        omega
      rw [periodRate_of_not_begun positive (mt (begun_iff begins).mp before), ← same]
      exact boundary_or_reached.resolve_left inside
  · have early : ¬ s.Begun (t / s.period * s.period) :=
      fun sooner => begun (sooner.mono (Nat.div_mul_le_self t s.period))
    rw [rate_of_not_begun begun, periodRate_of_not_begun positive early]

theorem presentRate_eq (positive : 0 < s.period) (t : Nat) : s.presentRate t = s.rate t := by
  unfold presentRate
  split
  · next first => rw [steady.rate_eq positive, first, periodRate, if_pos rfl]
  · rfl

/-- A second adds the hits of its rate. -/
theorem hits_succ (positive : 0 < s.period) (t : Nat) : s.hits (t + 1) = s.hits t + s.rate t := by
  rw [hits_succ_of_same_rate, steady.presentRate_eq positive]
  · rw [steady.presentRate_eq positive, steady.rate_eq positive]
  · intro same
    rw [steady.presentRate_eq positive, steady.presentRate_eq positive, steady.rate_eq positive,
      steady.rate_eq positive t, same]

/-- The hits due are the sum of the rates. -/
theorem hits_eq_sum (positive : 0 < s.period) (t : Nat) :
    s.hits t = ∑ second ∈ Finset.range t, s.rate second := by
  induction t with
  | zero => simp [hits, hitsOfPeriods]
  | succ t ih => rw [Finset.sum_range_succ, ← ih, steady.hits_succ positive]

theorem hits_mono (positive : 0 < s.period) (le : t ≤ later) : s.hits t ≤ s.hits later := by
  induction later, le using Nat.le_induction with
  | base => exact le_refl _
  | succ n le ih =>
      rw [steady.hits_succ positive]
      exact ih.trans (Nat.le_add_right _ _)

/-- From the beginning of the constant phase on hits are due at the rate that is held. -/
theorem hits_from_phase (positive : 0 < s.period) (begins : phase ∈ s.phase?) (le : phase ≤ t) :
    s.hits t = s.hits phase + s.held * (t - phase) := by
  induction t, le using Nat.le_induction with
  | base => rw [Nat.sub_self, Nat.mul_zero, Nat.add_zero]
  | succ t le ih =>
      rw [steady.hits_succ positive, ih, rate_of_begun ((begun_iff begins).mpr le),
        Nat.sub_add_comm le, Nat.mul_add_one, Nat.add_assoc]

end Steady

/-! ## The period that the constant phase splits -/

/-- From the beginning of the phase to the end of the period that it splits, hits are due at
the rate that is held. -/
theorem hits_in_split (positive : 0 < s.period) (split : s.SplitAt phase) (le : phase ≤ t)
    (same : t / s.period = phase / s.period) :
    s.hits t = s.hits phase + s.held * (t - phase) := by
  obtain ⟨begins, full, -⟩ := split
  have remainder : t % s.period = phase % s.period + (t - phase) := by
    have at_t := Nat.div_add_mod t s.period
    have at_phase := Nat.div_add_mod phase s.period
    rw [same] at at_t
    omega
  have present : s.presentRate t = s.held := by
    rw [presentRate_of_period_le positive (full.trans le)]
    exact rate_of_begun ((begun_iff begins).mpr le)
  have present_phase : s.presentRate phase = s.held := by
    rw [presentRate_of_period_le positive full]
    exact rate_of_begun ((begun_iff begins).mpr le_rfl)
  rw [hits, hits, present, present_phase, same, remainder, Nat.add_mul, Nat.add_assoc,
    Nat.mul_comm s.held]

/-- A phase that splits a period begins with a drop of the hits due or without. -/
theorem hits_drop_iff (positive : 0 < s.period) (split : s.SplitAt phase) :
    s.hits phase < s.hits (phase - 1) ↔ s.Drops phase := by
  obtain ⟨begins, full, inside⟩ := split
  have whole := Nat.div_add_mod phase s.period
  have remainder := Nat.mod_lt phase positive
  have inner : phase % s.period - 1 < s.period := by omega
  have before : phase - 1 = s.period * (phase / s.period) + (phase % s.period - 1) := by omega
  have quotient : (phase - 1) / s.period = phase / s.period := by
    rw [before, Nat.mul_add_div positive, Nat.div_eq_of_lt inner, Nat.add_zero]
  have seconds : (phase - 1) % s.period = phase % s.period - 1 := by
    rw [before, Nat.mul_add_mod, Nat.mod_eq_of_lt inner]
  have present : s.presentRate phase = s.held := by
    rw [presentRate_of_period_le positive full]
    exact rate_of_begun ((begun_iff begins).mpr le_rfl)
  have present_before : s.presentRate (phase - 1) = s.rampRate (phase / s.period) := by
    have still_full : s.period ≤ phase - 1 := by
      have periods := Nat.le_mul_of_pos_right s.period (Nat.div_pos full positive)
      omega
    rw [presentRate_of_period_le positive still_full, rate_of_not_begun, quotient]
    rw [begun_iff begins]
    omega
  rw [hits, hits, quotient, seconds, present, present_before, Nat.add_lt_add_iff_left]
  exact (and_iff_right full).symm

/-- Hits are only dropped by a phase that splits a period. -/
theorem Drops.splitAt (drops : s.Drops phase) (begins : phase ∈ s.phase?) : s.SplitAt phase := by
  refine ⟨begins, drops.1, fun whole => ?_⟩
  have fewer := drops.2
  rw [whole, Nat.zero_mul, Nat.zero_sub, Nat.zero_mul] at fewer
  exact Nat.not_lt_zero _ fewer

/-- If hits that were owed are no longer due, then the constant phase has split a period, and
the hits are owed by the phase itself unless its rate is zero or the hits due have dropped. -/
theorem owed_or_dropped (positive : 0 < s.period) (le : t ≤ later) {sent : Nat}
    (owed : sent < s.hits t) (enough : s.hits later ≤ sent) :
    ∃ phase, s.SplitAt phase ∧ phase ≤ later ∧
      (s.held = 0 ∨ sent - s.hits phase < s.held * (later - phase) ∨
        s.Drops phase) := by
  by_cases clear : ∀ phase, s.SplitAt phase → later < phase ∨ phase / s.period < t / s.period
  · exact absurd (hits_mono positive le clear) (by omega)
  · push Not at clear
    obtain ⟨phase, split, begun, reached⟩ := clear
    refine ⟨phase, split, begun, ?_⟩
    by_cases idle : s.held = 0
    · exact Or.inl idle
    · by_cases drop : s.Drops phase
      · exact Or.inr (Or.inr drop)
      · refine Or.inr (Or.inl ?_)
        rw [← hits_drop_iff positive split] at drop
        have due : sent < s.hits phase + s.held * (t - phase) := by
          rcases Nat.lt_or_ge t phase with before | inside
          · have grown : s.hits t ≤ s.hits (phase - 1) :=
              hits_mono positive (by omega) fun other split_other => by
                have same := split.1.symm.trans split_other.1
                simp only [Option.some.injEq] at same
                omega
            omega
          · have same := le_antisymm reached (Nat.div_le_div_right inside)
            rwa [hits_in_split positive split inside same] at owed
        have passed : phase < later := by
          refine lt_of_le_of_ne begun fun at_phase => ?_
          subst at_phase
          rw [Nat.sub_eq_zero_of_le le, Nat.mul_zero] at due
          omega
        have some_due : 0 < s.held * (later - phase) :=
          Nat.mul_pos (Nat.pos_of_ne_zero idle) (Nat.sub_pos_of_lt passed)
        have more_due : s.held * (t - phase) ≤ s.held * (later - phase) :=
          Nat.mul_le_mul_left _ (by omega)
        omega

end WholeSchedule

end LoadShape.Pacing
