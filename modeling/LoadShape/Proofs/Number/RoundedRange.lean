import LoadShape.Number.Checked
import LoadShape.Proofs.Number.Rounded

/-!
# How large rounded numbers are

Rounding keeps a number below every power of two that it is below, so an operation on numbers
that are not too large gives a finite one.  A sum of many small numbers stops growing: what is
less than a quarter of its last place is rounded away.
-/

namespace LoadShape.Number

variable {x y : Rat} {k : Nat}

theorem rounded_two_pow (k : Nat) : rounded (2 ^ k) = 2 ^ k := by
  refine rounded_of_bits (e := k) (m := 1) ?_ ?_ (by norm_num)
  · rw [Int.cast_one, one_mul, zpow_natCast]
  · exact (show leastPlace ≤ 0 by decide).trans (Int.natCast_nonneg k)

/-- A number is not rounded past a power of two. -/
theorem abs_rounded_le (le : |x| ≤ 2 ^ k) : |rounded x| ≤ 2 ^ k := by
  obtain ⟨low, high⟩ := abs_le.mp le
  rw [← rounded_two_pow k]
  refine abs_le.mpr ⟨?_, rounded_mono high⟩
  rw [← rounded_neg]
  exact rounded_mono low

theorem rounded_le_two_pow (le : x ≤ 2 ^ k) : rounded x ≤ 2 ^ k :=
  (rounded_mono le).trans_eq (rounded_two_pow k)

/-- Whole numbers are rounded to whole numbers. -/
theorem exists_rounded_intCast (n : Int) : ∃ m : Int, rounded n = m := by
  by_cases small : |n| ≤ 2 ^ 53
  · exact ⟨n, rounded_intCast small⟩
  · have large : (2 : Rat) ^ (53 : Int) < |(n : Rat)| := by
      exact_mod_cast not_le.mp small
    have places := (zpow_lt_zpow_iff_right₀ one_lt_two).mp (large.trans (abs_lt_of_place n))
    obtain ⟨k, place_eq⟩ := Int.eq_ofNat_of_zero_le (show 0 ≤ place n by omega)
    refine ⟨units n * 2 ^ k, ?_⟩
    rw [rounded_eq, place_eq]
    push_cast
    rw [zpow_natCast]

/-- A sum does not grow past a power of two by less than a quarter of the last place there. -/
theorem rounded_add_le (sum_le : x ≤ 2 ^ (k + 54)) (more_le : y ≤ 2 ^ k) :
    rounded (x + y) ≤ 2 ^ (k + 54) := by
  obtain ⟨z, z_eq⟩ : ∃ z : Rat, z = 2 ^ (k + 54) + 2 ^ k := ⟨_, rfl⟩
  have power : (0 : Rat) < 2 ^ k := by positivity
  have wide : (2 : Rat) ^ (k + 54) = 2 ^ 54 * 2 ^ k := by rw [pow_add, mul_comm]
  have z_abs : |z| = 2 ^ (k + 54) + 2 ^ k := by rw [z_eq, abs_of_pos (by positivity)]
  -- the last place of a number that is just above the power of two
  have place_z : place z = (k + 2 : Nat) := by
    have low : (2 : Rat) ^ ((k + 54 : Nat) : Int) < 2 ^ (place z + 53) := by
      rw [zpow_natCast]
      exact lt_of_lt_of_le (by linarith) (abs_lt_of_place z).le
    have le_place := (zpow_lt_zpow_iff_right₀ one_lt_two).mp low
    have nonzero : z ≠ 0 := by
      rw [← abs_pos, z_abs]
      positivity
    have above : leastPlace < place z := by
      unfold leastPlace
      omega
    have high : (2 : Rat) ^ (place z + 52) < 2 ^ ((k + 55 : Nat) : Int) := by
      refine lt_of_le_of_lt (le_abs_of_place nonzero above) ?_
      rw [z_abs, zpow_natCast, show k + 55 = k + 54 + 1 from rfl, pow_succ (2 : Rat) (k + 54), wide]
      linarith
    have place_le := (zpow_lt_zpow_iff_right₀ one_lt_two).mp high
    omega
  have quotient : z / 2 ^ place z = (2 ^ 52 : Int) + 1 / 4 := by
    rw [place_z, zpow_natCast, z_eq, wide, pow_add]
    push_cast
    field_simp
    norm_num
  have units_z : units z = 2 ^ 52 := by
    refine (isNearest_units z).unique ?_
    rw [quotient]
    refine ⟨by linarith, by linarith, ?_⟩
    rintro (tie | tie) <;> exact absurd tie (by linarith)
  calc rounded (x + y) ≤ rounded z := rounded_mono (z_eq ▸ add_le_add sum_le more_le)
    _ = 2 ^ (k + 54) := by
      rw [rounded_eq, units_z, place_z, zpow_natCast, wide, pow_add]
      push_cast
      ring

namespace Checked

theorem two_pow_lt_doubleLimit (few : k < 1024) : (2 : Rat) ^ k < doubleLimit := by
  rw [doubleLimit, scaled_eq, Int.cast_one, one_mul, ← zpow_natCast]
  exact zpow_lt_zpow_right₀ one_lt_two (by omega)

/-- Numbers that are not too large have a finite rounded one. -/
theorem double_of_abs_le (le : |x| ≤ 2 ^ k) (few : k < 1024) : double x = .ok (rounded x) :=
  keep_of_fits (abs_lt.mp ((abs_rounded_le le).trans_lt (two_pow_lt_doubleLimit few))) _

theorem double_of_le (nonneg : 0 ≤ x) (le : x ≤ 2 ^ k) (few : k < 1024) :
    double x = .ok (rounded x) :=
  double_of_abs_le (by rwa [abs_of_nonneg nonneg]) few

theorem ratio_of_ne_zero (nonzero : y ≠ 0) : ratio x y = double (x / y) := if_neg nonzero

end Checked

end LoadShape.Number
