/-!
# Numerals

Decimal numerals of whole numbers.
-/

namespace LoadShape.Text

/-- The decimal numeral of `n`, with a minus sign in front if it is negative. -/
def numeral (n : Int) : List Char :=
  match n with
  | .ofNat n => Nat.toDigits 10 n
  | .negSucc n => '-' :: Nat.toDigits 10 (n + 1)

/-- The numeral as text. -/
def decimal (n : Int) : String := String.ofList (numeral n)

@[simp]
theorem numeral_natCast (n : Nat) : numeral n = Nat.toDigits 10 n := rfl

end LoadShape.Text
