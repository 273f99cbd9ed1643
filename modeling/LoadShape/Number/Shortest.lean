import LoadShape.Number.Binary64

/-!
# Shortest decimals

The decimal of fewest digits among those that round to a given binary64 value;
of several with that many digits the nearest, and of two equally near the
greater.
-/

namespace LoadShape.Number

/-- The positive number `digits * 10 ^ exponent`. -/
structure Decimal where
  digits : Nat
  exponent : Int
  deriving DecidableEq, Repr

namespace Decimal

/-- The power `base ^ k` as a numerator and a denominator. -/
private def power (base : Nat) : Int → Nat × Nat
  | .ofNat k => (Nat.pow base k, 1)
  | .negSucc k => (1, Nat.pow base (k + 1))

/-- Both sides of a comparison of `c * 10 ^ k` with `q * 2 ^ e`, multiplied out. -/
private def crossed (c : Nat) (k : Int) (q : Nat) (e : Int) : Nat × Nat :=
  let ten := power 10 k
  let two := power 2 e
  (c * ten.1 * two.2, q * two.1 * ten.2)

/-- The greatest `p` with `10 ^ p ≤ m * 2 ^ e`, for positive `m`. -/
private def leadingPlace (m : Nat) (e : Int) : Int :=
  let guess := (e + m.log2) * 30103 / 100000
  let reached (p : Int) : Bool :=
    let (left, right) := crossed 1 p m e
    left ≤ right
  if reached (guess + 1) then guess + 1
  else if reached guess then guess
  else guess - 1

/-- Whether `c * 10 ^ k` rounds to `m * 2 ^ e`.  The interval is measured in
quarters of the last place: half a unit up, half a unit down, but only a quarter
down from a power of two; its ends belong to it for even `m`. -/
private def roundsTo (m : Nat) (e : Int) (c : Nat) (k : Int) : Bool :=
  let below := if m = 1 <<< 52 ∧ leastPlace < e then 1 else 2
  let (c₁, low) := crossed c k (4 * m - below) (e - 2)
  let (c₂, high) := crossed c k (4 * m + 2) (e - 2)
  if m % 2 = 0 then decide (low ≤ c₁ ∧ c₂ ≤ high) else decide (low < c₁ ∧ c₂ < high)

/-- The nearest decimal on the grid of multiples of `10 ^ k` that rounds to
`m * 2 ^ e`.  Only the two grid points around the value can do so first. -/
private def onGrid? (m : Nat) (e : Int) (k : Int) : Option Decimal :=
  let (ten, value) := crossed 1 k m e
  let c := value / ten
  let lower := roundsTo m e c k
  let upper := roundsTo m e (c + 1) k
  if upper && (!lower || ten ≤ 2 * (value % ten)) then some ⟨c + 1, k⟩
  else if lower then some ⟨c, k⟩
  else none

/-- The shortest decimal of `m * 2 ^ e`, for positive `m`: seventeen digits always
suffice. -/
def shortest (m : Nat) (e : Int) : Decimal :=
  let p := leadingPlace m e
  ((List.range 17).findSome? fun (n : Nat) => onGrid? m e (p - n)).getD ⟨m, 0⟩

/-- The decimal written out with a point and at least one digit on both sides of
it, without superfluous zeros. -/
def positional (d : Decimal) : List Char :=
  let written := Nat.toDigits 10 d.digits
  match d.exponent with
  | .ofNat k => written ++ List.replicate k '0' ++ ['.', '0']
  | .negSucc k =>
    let padded := List.replicate (k + 2 - written.length) '0' ++ written
    let whole := padded.length - (k + 1)
    let fraction := (padded.drop whole).reverse.dropWhile (· = '0') |>.reverse
    padded.take whole ++ '.' :: if fraction.isEmpty then ['0'] else fraction

end Decimal

/-- The text of a value: its shortest decimal, positional and with a point. -/
def Binary64.text : Binary64 → List Char
  | .notANumber => "NaN".toList
  | .infinite negative => if negative then "-inf".toList else "inf".toList
  | .finite negative units place =>
    let sign := if negative then ['-'] else []
    if units = 0 then sign ++ "0.0".toList
    else sign ++ (Decimal.shortest units place).positional

end LoadShape.Number
