/-!
# 64-bit numbers

Hits, rates and caps are 64-bit counters.  Arithmetic on them is done on natural
numbers and brought back by `saturate`, which stops at the largest counter.
-/

namespace LoadShape.Number

/-- The largest 64-bit counter. -/
def wordMax : Nat := 18446744073709551615

/-- The largest signed 64-bit number. -/
def signedMax : Nat := 9223372036854775807

/-- The least signed 64-bit number. -/
def signedMin : Int := -9223372036854775808

/-- The counter nearest to `n`. -/
def saturate (n : Nat) : UInt64 := UInt64.ofNat (min n wordMax)

theorem toNat_saturate (n : Nat) : (saturate n).toNat = min n wordMax := by
  have h : min n wordMax < UInt64.size := by
    unfold wordMax UInt64.size
    omega
  exact UInt64.toNat_ofNat_of_lt' h

theorem toNat_le_wordMax (w : UInt64) : w.toNat ≤ wordMax := by
  have h := w.toNat_lt
  unfold wordMax
  omega

theorem toNat_pos {w : UInt64} (nonzero : w ≠ 0) : 0 < w.toNat :=
  Nat.pos_of_ne_zero fun zero => nonzero (UInt64.toNat_inj.mp zero)

/-- The next counter; the largest stays. -/
def next (w : UInt64) : UInt64 := saturate (w.toNat + 1)

theorem toNat_next (w : UInt64) : (next w).toNat = min (w.toNat + 1) wordMax :=
  toNat_saturate _

/-- The whole part of `x` as a counter; below zero it is zero. -/
def wholePart (x : Rat) : UInt64 := saturate x.floor.toNat

end LoadShape.Number
