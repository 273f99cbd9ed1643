import LoadShape.Proofs.Workers.Settled
import Mathlib.Algebra.Order.Floor.Div
import Mathlib.Order.Bounds.Defs

/-!
# The schedule of a worker ramp

The workers after `n` steps, the tick with which a ramp ends, and the ticks before it.
Which tick is the last one depends on the instants at which ticks are produced; for a
consumer that never delays it is a matter of a few divisions.
-/

namespace LoadShape.Workers

open LoadShape.Time

namespace WorkerRamp

variable (r : WorkerRamp)

/-- The workers after `n` steps, never fewer than none. -/
def workersAfter (n : Nat) : Int := max 0 (r.start.toNat + n * r.step.toInt)

/-- Whether there is a target and `workers` have arrived at it, seen in the direction of
the ramp. -/
def Arrived (workers : Int) : Prop :=
  0 < r.target ∧ (0 < r.step.toInt → r.target.toNat ≤ workers) ∧
    (r.step.toInt < 0 → workers ≤ r.target.toNat)

/-- Tick number `n` is one with which the ramp can end: the budget is spent; or there is
no budget and the workers have arrived at the target; or no workers are left. -/
def EndsAt (instants : Nat → Nat) (n : Nat) : Prop :=
  (∃ budget, r.budget? = some budget ∧ budget.nanos ≤ instants n) ∨
    (r.budget? = none ∧ r.Arrived (r.workersAfter (n - 1))) ∨
    (r.step.toInt < 0 ∧ r.workersAfter (n - 1) = 0)

/-- No tick up to number `n`, apart from the first one, is the last. -/
def Lasts (instants : Nat → Nat) (n : Nat) : Prop :=
  ∀ k, 1 ≤ k → k ≤ n → ¬ r.EndsAt instants k

/-- Tick number `n` of a ramp that goes on: all workers to begin with, and then one step
after another. -/
def stepTick (n : Nat) : Tick :=
  if n = 0 then ⟨r.start.toNat, false⟩ else ⟨r.workersAfter n - r.workersAfter (n - 1), false⟩

/-- The last tick: the correction if the budget is spent, and no change otherwise. -/
def lastTick (instants : Nat → Nat) (n : Nat) : Tick where
  delta :=
    match r.budget? with
    | some budget =>
      if budget.nanos ≤ instants n then r.correction (r.workersAfter (n - 1)) else 0
    | none => 0
  done := true

/-- Tick number `n` of a ramp that ends with tick number `last`. -/
def scheduledTick (instants : Nat → Nat) (last n : Nat) : Tick :=
  if n < last then r.stepTick n else r.lastTick instants n

/-- The ticks of the ramp. -/
def source : TickSource := StepTicker.source ⟨r⟩

variable {r}

theorem rising_iff : r.rising = true ↔ 0 < r.step.toInt := by
  rw [rising, decide_eq_true_iff, Int64.lt_iff_toInt_lt, Int64.toInt_zero]

theorem rising_eq_false_iff : r.rising = false ↔ r.step.toInt < 0 := by
  have nonzero : r.step.toInt ≠ 0 := by
    intro zero
    exact r.step_ne_zero (Int64.toInt_inj.mp (zero.trans Int64.toInt_zero.symm))
  rw [← Bool.not_eq_true, rising_iff]
  omega

theorem reached_iff (workers : Int) : r.reached workers = true ↔ r.Arrived workers := by
  unfold reached Arrived
  cases direction : r.rising with
  | true =>
      have up := rising_iff.mp direction
      have notDown : ¬ r.step.toInt < 0 := by omega
      simp [up, notDown]
  | false =>
      have down := rising_eq_false_iff.mp direction
      have notUp : ¬ 0 < r.step.toInt := by omega
      simp [down, notUp]

theorem workersAfter_nonneg (n : Nat) : 0 ≤ r.workersAfter n := Int.le_max_left _ _

@[simp]
theorem workersAfter_zero : r.workersAfter 0 = r.start.toNat := by
  simp [workersAfter]

/-- A step that is cut short at no workers leads from one count to the next. -/
theorem workersAfter_succ (n : Nat) :
    r.workersAfter n + max r.step.toInt (-r.workersAfter n) = r.workersAfter (n + 1) := by
  have next : (r.start.toNat + ((n + 1 : Nat) : Int) * r.step.toInt : Int) =
      r.start.toNat + n * r.step.toInt + r.step.toInt := by
    rw [Nat.cast_succ, Int.add_mul, Int.one_mul, Int.add_assoc]
  have first : (0 : Int) ≤ r.start.toNat := Int.natCast_nonneg _
  unfold workersAfter
  rw [next]
  rcases Int.lt_or_le r.step.toInt 0 with down | up
  · omega
  · have rest : 0 ≤ (n : Int) * r.step.toInt := Int.mul_nonneg (Int.natCast_nonneg n) up
    omega

/-- A ramp that does not end takes a step. -/
theorem tickAt_of_not_endsAt {instants : Nat → Nat} {n : Nat}
    (goesOn : ¬ r.EndsAt instants (n + 1)) :
    r.tickAt (r.workersAfter n) (instants (n + 1)) = r.stepTick (n + 1) := by
  simp only [EndsAt, not_or, Nat.add_sub_cancel] at goesOn
  obtain ⟨inBudget, notArrived, notEmpty⟩ := goesOn
  have step : r.stepFrom (r.workersAfter n) = r.stepTick (n + 1) := by
    have further : ¬ ((!r.rising && decide (r.workersAfter n ≤ 0)) = true) := by
      simp only [Bool.and_eq_true, Bool.not_eq_true', decide_eq_true_eq, rising_eq_false_iff]
      rintro ⟨down, empty⟩
      exact notEmpty ⟨down, Int.le_antisymm empty (workersAfter_nonneg n)⟩
    have change : max r.step.toInt (-r.workersAfter n) =
        r.workersAfter (n + 1) - r.workersAfter n := by
      rw [← workersAfter_succ n]
      omega
    rw [stepFrom, if_neg further, stepTick, if_neg (Nat.succ_ne_zero n), change,
      Nat.add_sub_cancel]
  unfold tickAt
  cases budget : r.budget? with
  | none =>
      have short : r.reached (r.workersAfter n) ≠ true :=
        fun arrived => notArrived ⟨budget, (reached_iff _).mp arrived⟩
      simp only [if_neg short, step]
  | some span =>
      have early : ¬ span.nanos ≤ instants (n + 1) := fun spent => inBudget ⟨span, budget, spent⟩
      simp only [if_neg early, step]

/-- A ramp that ends does so with its last tick. -/
theorem tickAt_of_endsAt {instants : Nat → Nat} {n : Nat} (ends : r.EndsAt instants (n + 1)) :
    r.tickAt (r.workersAfter n) (instants (n + 1)) = r.lastTick instants (n + 1) := by
  simp only [EndsAt, Nat.add_sub_cancel] at ends
  have stops (down : r.step.toInt < 0) (empty : r.workersAfter n = 0) :
      r.stepFrom (r.workersAfter n) = ⟨0, true⟩ := by
    rw [stepFrom, rising_eq_false_iff.mpr down, empty]
    rfl
  unfold tickAt lastTick
  cases budget : r.budget? with
  | none =>
      simp only
      rcases ends with ⟨span, given, _⟩ | ⟨_, arrived⟩ | ⟨down, empty⟩
      · rw [budget] at given
        cases given
      · rw [if_pos ((reached_iff _).mpr arrived)]
      · split
        · rfl
        · exact stops down empty
  | some span =>
      simp only [Nat.add_sub_cancel]
      by_cases spent : span.nanos ≤ instants (n + 1)
      · rw [if_pos spent, if_pos spent]
      · rw [if_neg spent, if_neg spent]
        rcases ends with ⟨other, given, late⟩ | ⟨given, _⟩ | ⟨down, empty⟩
        · rw [budget] at given
          cases given
          exact absurd late spent
        · rw [budget] at given
          cases given
        · exact stops down empty

theorem Lasts.of_le {instants : Nat → Nat} {m n : Nat} (lasts : r.Lasts instants n)
    (bound : m ≤ n) : r.Lasts instants m :=
  fun k positive below => lasts k positive (Nat.le_trans below bound)

theorem Lasts.succ {instants : Nat → Nat} {n : Nat} (lasts : r.Lasts instants n)
    (goesOn : ¬ r.EndsAt instants (n + 1)) : r.Lasts instants (n + 1) := by
  intro k positive bound
  rcases Nat.lt_or_eq_of_le bound with earlier | rfl
  · exact lasts k positive (Nat.le_of_lt_succ earlier)
  · exact goesOn

/-- While a ramp goes on its ticks are steps, and they add up to the workers after
them. -/
theorem tickNo_of_lasts {instants : Nat → Nat} {n : Nat} (lasts : r.Lasts instants n) :
    r.source.tickNo instants n = r.stepTick n ∧
      r.source.workersBefore instants (n + 1) = r.workersAfter n := by
  induction n with
  | zero =>
      rw [TickSource.workersBefore_succ]
      constructor
      · rfl
      · rw [workersAfter_zero]
        exact Int.zero_add _
  | succ n ih =>
      obtain ⟨_, before⟩ := ih (lasts.of_le (Nat.le_succ n))
      have tick : r.source.tickNo instants (n + 1) = r.stepTick (n + 1) := by
        rw [TickSource.tickNo_succ, before]
        exact tickAt_of_not_endsAt (lasts (n + 1) (Nat.succ_pos n) (Nat.le_refl _))
      refine ⟨tick, ?_⟩
      rw [TickSource.workersBefore_succ, before, tick, stepTick, if_neg (Nat.succ_ne_zero n),
        Nat.add_sub_cancel]
      simp only
      omega

/-- The tick with which a ramp ends. -/
theorem tickNo_of_endsAt {instants : Nat → Nat} {n : Nat} (lasts : r.Lasts instants n)
    (ends : r.EndsAt instants (n + 1)) :
    r.source.tickNo instants (n + 1) = r.lastTick instants (n + 1) := by
  rw [TickSource.tickNo_succ, (tickNo_of_lasts lasts).2]
  exact tickAt_of_endsAt ends

theorem stepTick_done (n : Nat) : (r.stepTick n).done = false := by
  unfold stepTick
  split <;> rfl

/-! ## Whether and when a ramp ends -/

/-- A falling ramp is without workers from the first step on that could remove all of
them. -/
theorem workersAfter_eq_zero_iff (down : r.step.toInt < 0) (n : Nat) :
    r.workersAfter n = 0 ↔ r.start.toNat ≤ n * r.step.toInt.natAbs := by
  have size : r.step.toInt = -(r.step.toInt.natAbs : Int) := by omega
  have product : (n : Int) * r.step.toInt = -((n * r.step.toInt.natAbs : Nat) : Int) := by
    rw [Nat.cast_mul, ← Int.mul_neg, ← size]
  unfold workersAfter
  rw [product]
  omega

/-- The workers have arrived at a target from the first step on that could bridge the
distance. -/
theorem arrived_workersAfter_iff (target : 0 < r.target) (n : Nat) :
    r.Arrived (r.workersAfter n) ↔
      (if r.rising then r.target.toNat - r.start.toNat else r.start.toNat - r.target.toNat) ≤
        n * r.step.toInt.natAbs := by
  have positive : 0 < r.target.toNat := UInt32.lt_iff_toNat_lt.mp target
  unfold Arrived
  cases direction : r.rising with
  | true =>
      have up := rising_iff.mp direction
      have notDown : ¬ r.step.toInt < 0 := by omega
      have size : r.step.toInt = (r.step.toInt.natAbs : Int) := by omega
      have product : (n : Int) * r.step.toInt = ((n * r.step.toInt.natAbs : Nat) : Int) := by
        rw [Nat.cast_mul, ← size]
      simp only [target, up, notDown, true_and, true_implies, false_implies, and_true, if_true]
      unfold workersAfter
      rw [product]
      omega
  | false =>
      have down := rising_eq_false_iff.mp direction
      have notUp : ¬ 0 < r.step.toInt := by omega
      have size : r.step.toInt = -(r.step.toInt.natAbs : Int) := by omega
      have product : (n : Int) * r.step.toInt = -((n * r.step.toInt.natAbs : Nat) : Int) := by
        rw [Nat.cast_mul, ← Int.mul_neg, ← size]
      simp only [target, down, notUp, true_and, true_implies, false_implies, Bool.false_eq_true,
        if_false]
      unfold workersAfter
      rw [product]
      omega

theorem natAbs_step_pos : 0 < r.step.toInt.natAbs := by
  rw [Int.natAbs_pos]
  intro zero
  exact r.step_ne_zero (Int64.toInt_inj.mp (zero.trans Int64.toInt_zero.symm))

/-- A ramp comes to an end if it falls, has a target, or has a budget, and only then:
its ticks are at least a period apart. -/
theorem exists_endsAt_iff {instants : Nat → Nat}
    (apart : ∀ n, n * r.period.nanos ≤ instants n) :
    (∃ n, 1 ≤ n ∧ r.EndsAt instants n) ↔
      r.step.toInt < 0 ∨ 0 < r.target ∨ r.budget?.isSome = true := by
  have size : 1 ≤ r.step.toInt.natAbs := natAbs_step_pos
  constructor
  · rintro ⟨n, _, ⟨budget, given, _⟩ | ⟨_, arrived⟩ | ⟨down, _⟩⟩
    · right; right
      rw [given]
      rfl
    · exact Or.inr (Or.inl arrived.1)
    · exact Or.inl down
  · rintro (down | target | given)
    · refine ⟨r.start.toNat + 1, Nat.succ_pos _, Or.inr (Or.inr ⟨down, ?_⟩)⟩
      rw [workersAfter_eq_zero_iff down, Nat.add_sub_cancel]
      exact Nat.le_mul_of_pos_right _ size
    · cases budget : r.budget? with
      | none =>
          refine ⟨r.target.toNat + r.start.toNat + 1, Nat.succ_pos _,
            Or.inr (Or.inl ⟨budget, ?_⟩)⟩
          rw [arrived_workersAfter_iff target, Nat.add_sub_cancel]
          refine Nat.le_trans ?_ (Nat.le_mul_of_pos_right _ size)
          split <;> omega
      | some span =>
          refine ⟨span.nanos + 1, Nat.succ_pos _, Or.inl ⟨span, budget, ?_⟩⟩
          have late := apart (span.nanos + 1)
          have wide := Nat.le_mul_of_pos_right (span.nanos + 1)
            (Nat.pos_of_ne_zero r.period_ne_zero)
          omega
    · obtain ⟨span, budget⟩ := Option.isSome_iff_exists.mp given
      refine ⟨span.nanos + 1, Nat.succ_pos _, Or.inl ⟨span, budget, ?_⟩⟩
      have late := apart (span.nanos + 1)
      have wide := Nat.le_mul_of_pos_right (span.nanos + 1)
        (Nat.pos_of_ne_zero r.period_ne_zero)
      omega

/-- The last tick for a consumer that never delays: the least of the first tick at which
the budget is spent and the first one without workers; or, without a budget, the first
one at the target. -/
def punctualLast? (r : WorkerRamp) : Option Nat :=
  let size := r.step.toInt.natAbs
  let emptied := r.start.toNat ⌈/⌉ size + 1
  match r.budget? with
  | some budget =>
    let spent := max 1 (budget.nanos ⌈/⌉ r.period.nanos)
    some (if r.rising then spent else min spent emptied)
  | none =>
    if r.target = 0 then if r.rising then none else some emptied
    else
      let distance :=
        if r.rising then r.target.toNat - r.start.toNat else r.start.toNat - r.target.toNat
      some (distance ⌈/⌉ size + 1)

/-- For a consumer that never delays a ramp can end with any tick from its last one
on. -/
theorem endsAt_punctual_iff {n : Nat} (positive : 1 ≤ n) :
    r.EndsAt (fun k => k * r.period.nanos) n ↔ ∃ last, r.punctualLast? = some last ∧ last ≤ n := by
  have period : 0 < r.period.nanos := Nat.pos_of_ne_zero r.period_ne_zero
  have bridged (distance : Nat) :
      distance ≤ (n - 1) * r.step.toInt.natAbs ↔ distance ⌈/⌉ r.step.toInt.natAbs + 1 ≤ n := by
    rw [Nat.mul_comm, ← ceilDiv_le_iff_le_mul natAbs_step_pos]
    omega
  have empty : (r.step.toInt < 0 ∧ r.workersAfter (n - 1) = 0) ↔
      r.rising = false ∧ r.start.toNat ⌈/⌉ r.step.toInt.natAbs + 1 ≤ n := by
    rw [← bridged, rising_eq_false_iff]
    exact and_congr_right fun down => workersAfter_eq_zero_iff down (n - 1)
  cases budget : r.budget? with
  | some span =>
      have spent : span.nanos ≤ n * r.period.nanos ↔ span.nanos ⌈/⌉ r.period.nanos ≤ n := by
        rw [ceilDiv_le_iff_le_mul period, Nat.mul_comm]
      have ends : r.EndsAt (fun k => k * r.period.nanos) n ↔
          span.nanos ⌈/⌉ r.period.nanos ≤ n ∨
            r.rising = false ∧ r.start.toNat ⌈/⌉ r.step.toInt.natAbs + 1 ≤ n := by
        simp only [EndsAt, budget, empty, Option.some.injEq, exists_eq_left', spent, reduceCtorEq,
          false_and, false_or]
      rw [ends]
      simp only [punctualLast?, budget, Option.some.injEq, exists_eq_left']
      cases r.rising with
      | true => simp only [Bool.true_eq_false, if_true, false_and, or_false]; omega
      | false => simp only [Bool.false_eq_true, if_false, true_and]; omega
  | none =>
      have ends : r.EndsAt (fun k => k * r.period.nanos) n ↔
          r.Arrived (r.workersAfter (n - 1)) ∨
            r.rising = false ∧ r.start.toNat ⌈/⌉ r.step.toInt.natAbs + 1 ≤ n := by
        simp only [EndsAt, budget, empty, reduceCtorEq, false_and, exists_false, true_and,
          false_or]
      rw [ends]
      simp only [punctualLast?, budget]
      by_cases target : r.target = 0
      · have nowhere : ¬ r.Arrived (r.workersAfter (n - 1)) := by
          rintro ⟨beyond, _⟩
          rw [target] at beyond
          exact absurd beyond (by decide)
        rw [if_pos target]
        cases r.rising with
        | true => simp [nowhere]
        | false => simp [nowhere]
      · have given : 0 < r.target :=
          UInt32.lt_iff_toNat_lt.mpr (Nat.pos_of_ne_zero (UInt32.toNat_inj.not.mpr target))
        rw [if_neg target, arrived_workersAfter_iff given, bridged]
        simp only [Option.some.injEq, exists_eq_left']
        constructor
        · rintro (arrived | ⟨direction, gone⟩)
          · exact arrived
          · rw [← bridged] at gone ⊢
            rw [direction]
            exact Nat.le_trans (Nat.sub_le _ _) gone
        · exact Or.inl

theorem punctualLast?_pos {last : Nat} (found : r.punctualLast? = some last) : 1 ≤ last := by
  unfold punctualLast? at found
  cases budget : r.budget? with
  | some span =>
      simp only [budget, Option.some.injEq] at found
      split at found <;> omega
  | none =>
      simp only [budget] at found
      split at found
      · split at found
        · cases found
        · cases found
          exact Nat.succ_pos _
      · cases found
        exact Nat.succ_pos _

/-- For a consumer that never delays the last tick is found by division. -/
theorem punctualLast?_eq_some_iff (last : Nat) :
    r.punctualLast? = some last ↔
      IsLeast {n | 1 ≤ n ∧ r.EndsAt (fun k => k * r.period.nanos) n} last := by
  constructor
  · intro found
    have positive := punctualLast?_pos found
    refine ⟨⟨positive, (endsAt_punctual_iff positive).mpr ⟨last, found, Nat.le_refl _⟩⟩, ?_⟩
    rintro n ⟨positive, ends⟩
    obtain ⟨other, same, bound⟩ := (endsAt_punctual_iff positive).mp ends
    rw [found] at same
    cases same
    exact bound
  · rintro ⟨⟨positive, ends⟩, least⟩
    obtain ⟨other, found, bound⟩ := (endsAt_punctual_iff positive).mp ends
    have first := punctualLast?_pos found
    have below := least ⟨first, (endsAt_punctual_iff first).mpr ⟨other, found, Nat.le_refl _⟩⟩
    rw [found, Nat.le_antisymm bound below]

end WorkerRamp

end LoadShape.Workers
