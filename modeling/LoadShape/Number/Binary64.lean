import LoadShape.Number.Rounding

/-!
# The binary64 format

The bit pattern of a rounded rational number, and the values that a decimal
numeral can stand for: a signed multiple of a power of two, an infinity, or no
number.
-/

namespace LoadShape.Number

/-- The bit pattern of `n / d`: the exponent field is counted from the smallest
place, and the leading bit of the units carries into it. -/
def magnitudeBits (n d : Nat) : Nat :=
  if n = 0 then 0
  else
    let e := lastPlace n d
    (e - leastPlace).toNat <<< 52 + unitsAt e n d

/-- The bit pattern of a rounded number; the sign has the highest bit. -/
def bitPattern (x : Rat) : Nat :=
  (if x < 0 then 1 <<< 63 else 0) + magnitudeBits x.num.natAbs x.den

/-- A value of the format. -/
inductive Binary64 where
  /-- The number `units * 2 ^ place`, negated if `negative`. -/
  | finite (negative : Bool) (units : Nat) (place : Int)
  | infinite (negative : Bool)
  | notANumber
  deriving DecidableEq, Repr

namespace Binary64

/-- The value nearest to `n / d`; from half a unit past the largest number on it
is infinite.  Units that were rounded up to a 54th bit are counted at the next
place. -/
def ofFraction (negative : Bool) (n d : Nat) : Binary64 :=
  let e := lastPlace n d
  let m := unitsAt e n d
  if 1024 ≤ e + m.log2 then .infinite negative
  else if m = 1 <<< 53 then .finite negative (1 <<< 52) (e + 1)
  else .finite negative m e

/-- The value nearest to `digits * 10 ^ exponent`.  Numerals far outside the
range of the format are settled by their size, before any power is taken. -/
def ofDecimal (negative : Bool) (digits : Nat) (exponent : Int) : Binary64 :=
  let size := exponent + (Nat.toDigits 10 digits).length
  if digits = 0 ∨ size < -330 then .finite negative 0 leastPlace
  else if 330 < size then .infinite negative
  else
    match exponent with
    | .ofNat k => ofFraction negative (digits * Nat.pow 10 k) 1
    | .negSucc k => ofFraction negative digits (Nat.pow 10 (k + 1))

end Binary64

end LoadShape.Number
