import LoadShape.Number.Rounding
import LoadShape.Number.Word
import Mathlib.Algebra.Order.Field.Basic
import Mathlib.Algebra.Order.Field.Power
import Mathlib.Algebra.Order.Field.Rat
import Mathlib.Data.Nat.Cast.Order.Field
import Mathlib.Data.Rat.Cast.Order
import Mathlib.Tactic.FieldSimp
import Mathlib.Tactic.Linarith
import Mathlib.Tactic.Positivity
import Mathlib.Tactic.Ring

/-!
# Rounding keeps the order

A rounded number is the nearest multiple of its last place.  Rounding never swaps two
numbers, it fixes every number that has no more than 53 significant bits, and so it fixes
every whole number up to `2 ^ 53`.
-/

namespace LoadShape.Number

/-! ## The nearest whole number -/

/-- `m` is nearest to `q`, and even if another whole number is as near. -/
structure IsNearest (q : Rat) (m : Int) : Prop where
  below : q ≤ m + 1 / 2
  above : m - 1 / 2 ≤ q
  even : q = m + 1 / 2 ∨ q = m - 1 / 2 → m % 2 = 0

/-- Whole numbers are nearest to themselves. -/
theorem isNearest_intCast (m : Int) : IsNearest m m := by
  refine ⟨by linarith, by linarith, ?_⟩
  rintro (tie | tie) <;> exact absurd tie (by linarith)

/-- Nearest numbers are in the same order. -/
theorem IsNearest.mono {p q : Rat} {m n : Int} (hp : IsNearest p m) (hq : IsNearest q n)
    (le : p ≤ q) : m ≤ n := by
  by_contra less
  have next : n + 1 ≤ m := by omega
  have next_cast : (n : Rat) + 1 ≤ m := by exact_mod_cast next
  have above := hp.above
  have below := hq.below
  -- the only way out would be a tie between two neighbours, both of them even
  have same : (m : Rat) = n + 1 := by linarith
  have even_m := hp.even (Or.inr (by linarith))
  have even_n := hq.even (Or.inl (by linarith))
  have consecutive : m = n + 1 := by exact_mod_cast same
  omega

theorem IsNearest.unique {q : Rat} {m n : Int} (hm : IsNearest q m) (hn : IsNearest q n) :
    m = n :=
  Int.le_antisymm (hm.mono hn (le_refl q)) (hn.mono hm (le_refl q))

theorem IsNearest.neg {q : Rat} {m : Int} (h : IsNearest q m) : IsNearest (-q) (-m) := by
  have below := h.below
  have above := h.above
  refine ⟨by push_cast; linarith, by push_cast; linarith, ?_⟩
  intro tie
  push_cast at tie
  have even := h.even (by rcases tie with tie | tie <;> [right; left] <;> linarith)
  omega

/-- The whole number nearest to a fraction. -/
theorem isNearest_nearestEven (n : Nat) {d : Nat} (positive : 0 < d) :
    IsNearest ((n : Rat) / d) (nearestEven n d : Nat) := by
  have d_pos : (0 : Rat) < d := by exact_mod_cast positive
  have whole : (n : Rat) = d * (n / d : Nat) + (n % d : Nat) := by
    exact_mod_cast (Nat.div_add_mod n d).symm
  have quotient : (n : Rat) / d = (n / d : Nat) + ((n % d : Nat) : Rat) / d := by
    rw [whole]
    field_simp
  have part_nonneg : (0 : Rat) ≤ ((n % d : Nat) : Rat) / d := by positivity
  have part_lt : ((n % d : Nat) : Rat) / d < 1 := by
    rw [div_lt_one d_pos]
    exact_mod_cast Nat.mod_lt n positive
  unfold nearestEven
  rw [quotient]
  clear quotient whole
  generalize n / d = m
  split
  · next low =>
      have part_lt_half : ((n % d : Nat) : Rat) / d < 1 / 2 := by
        rw [div_lt_div_iff₀ d_pos two_pos]
        exact_mod_cast (by omega : n % d * 2 < 1 * d)
      refine ⟨by push_cast; linarith, by push_cast; linarith, ?_⟩
      rintro (tie | tie) <;> push_cast at tie <;> exact absurd tie (by linarith)
  · next notLow =>
      split
      · next high =>
          have half_lt_part : 1 / 2 < ((n % d : Nat) : Rat) / d := by
            rw [div_lt_div_iff₀ two_pos d_pos]
            exact_mod_cast (by omega : 1 * d < n % d * 2)
          refine ⟨by push_cast; linarith, by push_cast; linarith, ?_⟩
          rintro (tie | tie) <;> push_cast at tie <;> exact absurd tie (by linarith)
      · next notHigh =>
          have half : ((n % d : Nat) : Rat) / d = 1 / 2 := by
            rw [div_eq_div_iff d_pos.ne' two_ne_zero]
            exact_mod_cast (by omega : n % d * 2 = 1 * d)
          rw [half]
          rcases Nat.mod_two_eq_zero_or_one m with even | odd
          · rw [even]
            exact ⟨by push_cast; linarith, by push_cast; linarith, fun _ => by omega⟩
          · rw [odd]
            exact ⟨by push_cast; linarith, by push_cast; linarith, fun _ => by omega⟩

/-! ## The last place -/

/-- The two logarithms tell the binary order of a fraction up to one. -/
theorem floorLog2_eq (n d : Nat) :
    floorLog2 n d =
      if (2 : Rat) ^ ((n.log2 : Int) - d.log2) * d ≤ n then (n.log2 : Int) - d.log2
      else (n.log2 : Int) - d.log2 - 1 := by
  unfold floorLog2
  split
  · next le =>
      obtain ⟨k, rise⟩ := Nat.exists_eq_add_of_le le
      have exponent : (n.log2 : Int) - d.log2 = k := by omega
      have gap : n.log2 - d.log2 = k := by omega
      have same : d * 2 ^ k ≤ n ↔ (2 : Rat) ^ (k : Int) * d ≤ n := by
        rw [zpow_natCast, mul_comm]
        exact_mod_cast Iff.rfl
      rw [exponent, gap]
      simp only [Nat.shiftLeft_eq, same]
  · next less =>
      obtain ⟨k, fall⟩ := Nat.exists_eq_add_of_le (Nat.le_of_not_le less)
      have exponent : (n.log2 : Int) - d.log2 = -k := by omega
      have gap : d.log2 - n.log2 = k := by omega
      have same : d ≤ n * 2 ^ k ↔ (2 : Rat) ^ (-k : Int) * d ≤ n := by
        rw [zpow_neg, zpow_natCast, inv_mul_le_iff₀ (by positivity), mul_comm]
        exact_mod_cast Iff.rfl
      rw [exponent, gap]
      simp only [Nat.shiftLeft_eq, same]

/-- The power of two just below a fraction. -/
theorem floorLog2_spec {n d : Nat} (n_pos : 0 < n) (d_pos : 0 < d) :
    (2 : Rat) ^ floorLog2 n d ≤ (n : Rat) / d ∧ (n : Rat) / d < 2 ^ (floorLog2 n d + 1) := by
  have d_cast : (0 : Rat) < d := by exact_mod_cast d_pos
  have n_low : (2 : Rat) ^ (n.log2 : Int) ≤ n := by
    rw [zpow_natCast]
    exact_mod_cast Nat.log2_self_le n_pos.ne'
  have n_high : (n : Rat) < 2 ^ ((n.log2 : Int) + 1) := by
    exact_mod_cast (Nat.lt_log2_self : n < 2 ^ (n.log2 + 1))
  have d_low : (2 : Rat) ^ (d.log2 : Int) ≤ d := by
    rw [zpow_natCast]
    exact_mod_cast Nat.log2_self_le d_pos.ne'
  have d_high : (d : Rat) < 2 ^ ((d.log2 : Int) + 1) := by
    exact_mod_cast (Nat.lt_log2_self : d < 2 ^ (d.log2 + 1))
  rw [le_div_iff₀ d_cast, div_lt_iff₀ d_cast, floorLog2_eq]
  generalize (n.log2 : Int) = a at *
  generalize (d.log2 : Int) = b at *
  split
  · next le =>
      refine ⟨le, ?_⟩
      calc (n : Rat) < 2 ^ (a + 1) := n_high
        _ = 2 ^ (a - b + 1) * 2 ^ b := by rw [← zpow_add₀ two_ne_zero]; ring_nf
        _ ≤ 2 ^ (a - b + 1) * d := by gcongr
  · next less =>
      refine ⟨?_, by simpa using less⟩
      calc (2 : Rat) ^ (a - b - 1) * d ≤ 2 ^ (a - b - 1) * 2 ^ (b + 1) := by gcongr
        _ = 2 ^ a := by rw [← zpow_add₀ two_ne_zero]; ring_nf
        _ ≤ n := n_low

/-! ## Rounded numbers -/

/-- The last place that is kept of a number. -/
def place (x : Rat) : Int := lastPlace x.num.natAbs x.den

/-- How many units of the last place a number is rounded to. -/
def units (x : Rat) : Int := x.num.sign * unitsAt (place x) x.num.natAbs x.den

theorem scaled_eq (m e : Int) : scaled m e = m * (2 : Rat) ^ e := by
  cases e with
  | ofNat k => simp [scaled, Int.shiftLeft_eq]
  | negSucc k => simp [scaled, Rat.mkRat_eq_div, Nat.shiftLeft_eq, zpow_negSucc, div_eq_mul_inv]

/-- A rounded number is a whole number of units of its last place. -/
theorem rounded_eq (x : Rat) : rounded x = units x * (2 : Rat) ^ place x := by
  rw [rounded, scaled_eq]
  rfl

theorem num_natAbs_div_den (x : Rat) : (x.num.natAbs : Rat) / x.den = |x| := by
  rw [Nat.cast_natAbs, Int.cast_abs, ← abs_of_nonneg (Nat.cast_nonneg x.den : (0 : Rat) ≤ x.den),
    ← abs_div, Rat.num_div_den]

/-- The units of a place nearest to a fraction. -/
theorem isNearest_unitsAt (e : Int) (n : Nat) {d : Nat} (positive : 0 < d) :
    IsNearest ((n : Rat) / d / 2 ^ e) (unitsAt e n d : Nat) := by
  cases e with
  | ofNat k =>
      have nearest := isNearest_nearestEven n (d := d * 2 ^ k) (by positivity)
      rw [Nat.cast_mul, Nat.cast_pow, Nat.cast_ofNat, ← div_div] at nearest
      simp only [unitsAt, Nat.shiftLeft_eq, Int.ofNat_eq_natCast, zpow_natCast]
      exact nearest
  | negSucc k =>
      have nearest := isNearest_nearestEven (n * 2 ^ (k + 1)) positive
      rw [Nat.cast_mul, Nat.cast_pow, Nat.cast_ofNat, mul_div_right_comm] at nearest
      simp only [unitsAt, Nat.shiftLeft_eq, zpow_negSucc, div_inv_eq_mul]
      exact nearest

/-- The units are nearest to what is rounded. -/
theorem isNearest_units (x : Rat) : IsNearest (x / 2 ^ place x) (units x) := by
  have nearest := isNearest_unitsAt (place x) x.num.natAbs x.den_pos
  rw [num_natAbs_div_den] at nearest
  rcases lt_trichotomy x 0 with negative | rfl | positive
  · have sign : x.num.sign = -1 := Int.sign_eq_neg_one_of_neg (Rat.num_neg.mpr negative)
    have flipped := nearest.neg
    rw [abs_of_neg negative, neg_div, neg_neg] at flipped
    rw [units, sign, neg_one_mul]
    exact flipped
  · simpa [units] using isNearest_intCast 0
  · have sign : x.num.sign = 1 := Int.sign_eq_one_of_pos (Rat.num_pos.mpr positive)
    rw [abs_of_pos positive] at nearest
    rw [units, sign, one_mul]
    exact nearest

theorem leastPlace_le_place (x : Rat) : leastPlace ≤ place x := leastPlace_le_lastPlace _ _

/-- Fewer than 54 bits of a number are above its last place. -/
theorem abs_lt_of_place (x : Rat) : |x| < 2 ^ (place x + 53) := by
  by_cases zero : x = 0
  · rw [zero, abs_zero]
    positivity
  · have spec := (floorLog2_spec (Int.natAbs_pos.mpr (Rat.num_ne_zero.mpr zero)) x.den_pos).2
    rw [num_natAbs_div_den] at spec
    refine lt_of_lt_of_le spec (zpow_le_zpow_right₀ one_le_two ?_)
    unfold place lastPlace
    omega

/-- A number whose last place is not the least one has 53 bits above it. -/
theorem le_abs_of_place {x : Rat} (nonzero : x ≠ 0) (above : leastPlace < place x) :
    (2 : Rat) ^ (place x + 52) ≤ |x| := by
  have spec := (floorLog2_spec (Int.natAbs_pos.mpr (Rat.num_ne_zero.mpr nonzero)) x.den_pos).1
  rw [num_natAbs_div_den] at spec
  have exponent : place x + 52 = floorLog2 x.num.natAbs x.den := by
    unfold place lastPlace at above ⊢
    omega
  rw [exponent]
  exact spec

/-! ## Numbers that are kept -/

/-- A multiple of the last place is not changed. -/
theorem rounded_of_multiple {x : Rat} {e m : Int} (multiple : x = m * (2 : Rat) ^ e)
    (fine : place x ≤ e) : rounded x = x := by
  obtain ⟨k, rise⟩ := Int.le.dest fine
  have quotient : x / 2 ^ place x = (m * 2 ^ k : Int) := by
    rw [multiple, mul_div_assoc, ← zpow_sub₀ two_ne_zero, ← multiple,
      show e - place x = k by omega]
    push_cast
    rw [zpow_natCast]
  have exact_units : units x = m * 2 ^ k :=
    (isNearest_units x).unique (quotient ▸ isNearest_intCast _)
  rw [rounded_eq, exact_units, ← quotient, div_mul_cancel₀]
  positivity

/-- Numbers of at most 53 significant bits are not changed. -/
theorem rounded_of_bits {x : Rat} {e m : Int} (value : x = m * (2 : Rat) ^ e)
    (inFormat : leastPlace ≤ e) (bits : |m| ≤ 2 ^ 53) : rounded x = x := by
  rcases Int.lt_or_le e (place x) with coarse | fine
  · by_cases zero : x = 0
    · rw [zero, rounded_zero]
    · -- only `2 ^ 53` units are as many as that, and they are half as many of the next place
      have low := le_abs_of_place zero (by omega)
      have size : |x| = |(m : Rat)| * 2 ^ e := by
        rw [value, abs_mul, abs_of_pos (by positivity : (0 : Rat) < 2 ^ e)]
      rw [size] at low
      have bits_cast : |(m : Rat)| ≤ 2 ^ (53 : Int) := by exact_mod_cast bits
      have high : |(m : Rat)| * 2 ^ e ≤ 2 ^ (e + 53) := by
        rw [add_comm, zpow_add₀ two_ne_zero]
        gcongr
      have next : place x = e + 1 := by
        have powers := (zpow_le_zpow_iff_right₀ one_lt_two).mp (le_trans low high)
        omega
      have many : (2 : Rat) ^ (53 : Int) ≤ |(m : Rat)| := by
        rw [next, show e + 1 + 52 = 53 + e by ring, zpow_add₀ two_ne_zero] at low
        exact le_of_mul_le_mul_right low (by positivity)
      have exactly : |m| = 2 ^ 53 := le_antisymm bits (by exact_mod_cast many)
      obtain ⟨half, twice⟩ : ∃ half, m = half * 2 := by
        refine ⟨m / 2, ?_⟩
        rcases abs_eq (by norm_num) |>.mp exactly with rfl | rfl <;> norm_num
      refine rounded_of_multiple (e := e + 1) (m := half) ?_ (le_of_eq next)
      rw [value, twice, zpow_add₀ two_ne_zero, zpow_one]
      push_cast
      ring
  · exact rounded_of_multiple value fine

/-- Whole numbers up to `2 ^ 53` are not changed. -/
theorem rounded_intCast {n : Int} (small : |n| ≤ 2 ^ 53) : rounded n = n :=
  rounded_of_bits (e := 0) (by simp) (by decide) small

theorem rounded_natCast {n : Nat} (small : n ≤ 2 ^ 53) : rounded n = n := by
  have whole : |(n : Int)| ≤ 2 ^ 53 := by
    rw [Nat.abs_cast]
    exact_mod_cast small
  exact_mod_cast rounded_intCast whole

theorem rounded_mul_natCast {m n : Nat} (small : m * n ≤ 2 ^ 53) :
    rounded (m * n) = (m * n : Nat) := by
  exact_mod_cast rounded_natCast small

theorem rounded_add_natCast {m n : Nat} (small : m + n ≤ 2 ^ 53) :
    rounded (m + n) = (m + n : Nat) := by
  exact_mod_cast rounded_natCast small

/-! ## The order of rounded numbers -/

theorem place_neg (x : Rat) : place (-x) = place x := by
  simp [place]

theorem rounded_neg (x : Rat) : rounded (-x) = -rounded x := by
  have flipped := (isNearest_units x).neg
  rw [← neg_div, ← place_neg] at flipped
  have same : units (-x) = -units x := (isNearest_units (-x)).unique flipped
  rw [rounded_eq, rounded_eq, same, place_neg]
  push_cast
  ring

theorem rounded_nonneg {x : Rat} (nonneg : 0 ≤ x) : 0 ≤ rounded x := by
  have power : (0 : Rat) < 2 ^ place x := by positivity
  have units_nonneg : 0 ≤ units x := by
    refine (isNearest_intCast 0).mono (isNearest_units x) ?_
    rw [Int.cast_zero]
    positivity
  rw [rounded_eq]
  have cast_nonneg : (0 : Rat) ≤ units x := by exact_mod_cast units_nonneg
  positivity

/-- Larger numbers have no smaller last place. -/
theorem place_mono {x y : Rat} (le : |x| ≤ |y|) (nonzero : x ≠ 0) : place x ≤ place y := by
  by_contra less
  have above : leastPlace < place x := lt_of_le_of_lt (leastPlace_le_place y) (by omega)
  have low := le_abs_of_place nonzero above
  have high := abs_lt_of_place y
  have powers : (2 : Rat) ^ (place y + 53) ≤ 2 ^ (place x + 52) :=
    zpow_le_zpow_right₀ one_le_two (by omega)
  linarith

/-- A number is not rounded past a multiple of its last place. -/
theorem rounded_le {x : Rat} {m : Int} (le : x ≤ m * (2 : Rat) ^ place x) :
    rounded x ≤ m * (2 : Rat) ^ place x := by
  have power : (0 : Rat) < 2 ^ place x := by positivity
  have units_le : units x ≤ m :=
    (isNearest_units x).mono (isNearest_intCast m) ((div_le_iff₀ power).mpr le)
  rw [rounded_eq]
  gcongr

theorem le_rounded {x : Rat} {m : Int} (le : m * (2 : Rat) ^ place x ≤ x) :
    m * (2 : Rat) ^ place x ≤ rounded x := by
  have power : (0 : Rat) < 2 ^ place x := by positivity
  have le_units : m ≤ units x :=
    (isNearest_intCast m).mono (isNearest_units x) ((le_div_iff₀ power).mpr le)
  rw [rounded_eq]
  gcongr

/-- Rounding keeps the order of positive numbers.  Between two numbers with different last
places stands a power of two, which is a multiple of both. -/
theorem rounded_mono_of_pos {x y : Rat} (positive : 0 < x) (le : x ≤ y) :
    rounded x ≤ rounded y := by
  have y_pos : 0 < y := lt_of_lt_of_le positive le
  have places : place x ≤ place y :=
    place_mono (by rwa [abs_of_pos positive, abs_of_pos y_pos]) positive.ne'
  rcases places.eq_or_lt with same | coarser
  · have power : (0 : Rat) < 2 ^ place y := by positivity
    have nearest := isNearest_units x
    rw [same] at nearest
    have units_le : units x ≤ units y :=
      nearest.mono (isNearest_units y) ((div_le_div_iff_of_pos_right power).mpr le)
    rw [rounded_eq, rounded_eq, same]
    gcongr
  · obtain ⟨k, rise⟩ := Int.le.dest places
    have border_le : (2 : Rat) ^ (place y + 52) ≤ y := by
      have low := le_abs_of_place y_pos.ne' (lt_of_le_of_lt (leastPlace_le_place x) coarser)
      rwa [abs_of_pos y_pos] at low
    have le_border : x ≤ 2 ^ (place y + 52) := by
      have high := abs_lt_of_place x
      rw [abs_of_pos positive] at high
      exact le_trans high.le (zpow_le_zpow_right₀ one_le_two (by omega))
    have border_x : (2 : Rat) ^ (place y + 52) = (2 ^ (k + 52) : Int) * 2 ^ place x := by
      push_cast
      rw [← zpow_natCast, ← zpow_add₀ two_ne_zero]
      congr 1
      push_cast
      omega
    have border_y : (2 : Rat) ^ (place y + 52) = (2 ^ 52 : Int) * 2 ^ place y := by
      rw [add_comm, zpow_add₀ two_ne_zero]
      norm_num
    calc rounded x ≤ (2 ^ (k + 52) : Int) * 2 ^ place x := rounded_le (border_x ▸ le_border)
      _ = (2 ^ 52 : Int) * 2 ^ place y := by rw [← border_x, border_y]
      _ ≤ rounded y := le_rounded (border_y ▸ border_le)

/-- Rounding keeps the order. -/
theorem rounded_mono {x y : Rat} (le : x ≤ y) : rounded x ≤ rounded y := by
  rcases lt_or_ge 0 x with positive | x_nonpos
  · exact rounded_mono_of_pos positive le
  · rcases lt_or_ge y 0 with negative | y_nonneg
    · have flipped := rounded_mono_of_pos (neg_pos.mpr negative) (neg_le_neg le)
      rw [rounded_neg, rounded_neg] at flipped
      exact neg_le_neg_iff.mp flipped
    · have x_le := rounded_nonneg (neg_nonneg.mpr x_nonpos)
      rw [rounded_neg] at x_le
      exact le_trans (neg_nonneg.mp x_le) (rounded_nonneg y_nonneg)

theorem natCast_le_rounded {x : Rat} {q : Nat} (small : q ≤ 2 ^ 53) (le : q ≤ x) :
    q ≤ rounded x := by
  rw [← rounded_natCast small]
  exact rounded_mono le

/-- A number is not rounded up to the next whole number, if between the two there is room for a
number of `k` binary places. -/
theorem rounded_lt_natCast_succ {x : Rat} {q k : Nat} (bits : (q + 1) * 2 ^ k ≤ 2 ^ 53)
    (le : x ≤ q + 1 - 1 / 2 ^ k) : rounded x < q + 1 := by
  have places : k ≤ 53 :=
    (Nat.pow_le_pow_iff_right (show 1 < 2 by decide)).mp
      ((Nat.le_mul_of_pos_left _ q.succ_pos).trans bits)
  obtain ⟨last, value⟩ : ∃ last : Rat, last = ((q + 1) * 2 ^ k - 1 : Int) * 2 ^ (-k : Int) :=
    ⟨_, rfl⟩
  have last_eq : last = q + 1 - 1 / 2 ^ k := by
    rw [value, zpow_neg, zpow_natCast]
    push_cast
    field_simp
  have rounded_last : rounded last = last := by
    have bits_int : ((q : Int) + 1) * 2 ^ k ≤ 2 ^ 53 := by exact_mod_cast bits
    have some_units : 0 < ((q : Int) + 1) * 2 ^ k := by positivity
    refine rounded_of_bits value (by unfold leastPlace; omega) (abs_le.mpr ⟨?_, ?_⟩) <;> omega
  have part : (0 : Rat) < 1 / 2 ^ k := by positivity
  calc rounded x ≤ rounded last := rounded_mono (by rwa [last_eq])
    _ = last := rounded_last
    _ < q + 1 := by rw [last_eq]; linarith

/-! ## Counters -/

theorem saturate_mono {m n : Nat} (le : m ≤ n) : saturate m ≤ saturate n := by
  rw [UInt64.le_iff_toNat_le, toNat_saturate, toNat_saturate]
  omega

theorem wholePart_mono {x y : Rat} (le : x ≤ y) : wholePart x ≤ wholePart y :=
  saturate_mono (Int.toNat_le_toNat (Rat.floor_monotone le))

@[simp]
theorem wholePart_natCast (n : Nat) : wholePart n = saturate n := by
  rw [wholePart, ← Int.cast_natCast, Rat.floor_intCast, Int.toNat_natCast]

theorem wholePart_eq {x : Rat} {q : Nat} (low : q ≤ x) (high : x < q + 1) :
    wholePart x = saturate q := by
  have floor : x.floor = q := by
    refine Int.le_antisymm (Int.lt_add_one_iff.mp ?_) ?_
    · rw [Rat.floor_lt_iff]
      exact_mod_cast high
    · rw [Rat.le_floor_iff]
      exact_mod_cast low
  rw [wholePart, floor, Int.toNat_natCast]

/-- The whole part of a quotient survives rounding, if the divisor is not greater than a power of
two to which the quotient leaves enough bits. -/
theorem wholePart_rounded_div {n d k : Nat} (positive : 0 < d) (d_le : d ≤ 2 ^ k)
    (bits : (n / d + 1) * 2 ^ k ≤ 2 ^ 53) :
    wholePart (rounded ((n : Rat) / d)) = saturate (n / d) := by
  have d_pos : (0 : Rat) < d := by exact_mod_cast positive
  have small : n / d ≤ 2 ^ 53 :=
    (Nat.le_succ _).trans ((Nat.le_mul_of_pos_right _ (by positivity)).trans bits)
  have low : ((n / d : Nat) : Rat) ≤ n / d := Nat.cast_div_le
  have high : (n : Rat) / d ≤ (n / d : Nat) + 1 - 1 / 2 ^ k := by
    have next : n + 1 ≤ (n / d + 1) * d := by
      rw [Nat.mul_comm]
      exact Nat.lt_mul_div_succ n positive
    have fits : (n : Rat) / d ≤ (n / d : Nat) + 1 - 1 / d := by
      rw [le_sub_iff_add_le, ← add_div, div_le_iff₀ d_pos]
      exact_mod_cast next
    have finer : (1 : Rat) / 2 ^ k ≤ 1 / d :=
      one_div_le_one_div_of_le d_pos (by exact_mod_cast d_le)
    linarith
  exact wholePart_eq (natCast_le_rounded small low) (rounded_lt_natCast_succ bits high)

end LoadShape.Number
