import LoadShape.Number.Rounding
import LoadShape.Number.Word

/-!
# Checked arithmetic

On a machine a number has a type, and an operation whose result does not fit the type of its
operands fails, as does a division by zero.  Every operation here gives the result that it has on
numbers without bounds, or the fault.
-/

namespace LoadShape.Number

/-- Why an operation fails. -/
inductive ArithmeticFault where
  /-- The result is beyond the type. -/
  | overflow
  | divisionByZero
  deriving DecidableEq, Repr

/-- A computation that may fail. -/
abbrev Checked (value : Type) : Type := Except ArithmeticFault value

namespace Checked

/-- The largest unsigned 128-bit number. -/
def wideMax : Nat := 340282366920938463463374607431768211455

/-- The largest signed 128-bit number. -/
def signedWideMax : Int := 170141183460469231731687303715884105727

/-- The least signed 128-bit number. -/
def signedWideMin : Int := -170141183460469231731687303715884105728

/-- The least power of two that is beyond the finite numbers of the binary64 format. -/
def doubleLimit : Rat := scaled 1 1024

/-- The value, if it fits. -/
def keep {value : Type} (fits : Prop) [Decidable fits] (x : value) : Checked value :=
  if fits then .ok x else .error .overflow

/-- A result as an unsigned 64-bit number. -/
def word (n : Nat) : Checked Nat := keep (n ≤ wordMax) n

/-- A result as an unsigned 128-bit number. -/
def wide (n : Nat) : Checked Nat := keep (n ≤ wideMax) n

/-- A result as a signed 128-bit number. -/
def signedWide (n : Int) : Checked Int := keep (signedWideMin ≤ n ∧ n ≤ signedWideMax) n

/-- A result as a binary64 number, which is rounded and finite. -/
def double (x : Rat) : Checked Rat :=
  keep (-doubleLimit < rounded x ∧ rounded x < doubleLimit) (rounded x)

/-- A quotient of whole numbers. -/
def quotient (n d : Nat) : Checked Nat :=
  if d = 0 then .error .divisionByZero else .ok (n / d)

/-- A quotient of binary64 numbers. -/
def ratio (x y : Rat) : Checked Rat :=
  if y = 0 then .error .divisionByZero else double (x / y)

@[simp]
theorem ok_bind {value result : Type} (x : value) (f : value → Checked result) :
    (Except.ok x >>= f) = f x := rfl

theorem keep_of_fits {value : Type} {fits : Prop} [Decidable fits] (proof : fits) (x : value) :
    keep fits x = .ok x := if_pos proof

theorem word_of_le {n : Nat} (le : n ≤ wordMax) : word n = .ok n := keep_of_fits le n

theorem wide_of_le {n : Nat} (le : n ≤ wideMax) : wide n = .ok n := keep_of_fits le n

theorem quotient_of_ne_zero {n d : Nat} (nonzero : d ≠ 0) : quotient n d = .ok (n / d) :=
  if_neg nonzero

end Checked

end LoadShape.Number
