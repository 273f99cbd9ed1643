/-!
# Rounding to 53 significant bits

Rates and expected hit counts are rational numbers kept to the precision of the
binary64 format: after every single operation the exact result is replaced by
the nearest number `m * 2 ^ e` with `m` of at most 53 bits and `-1074 ≤ e`, a tie
going to the even `m`.  The upper limit of the format plays no part here, since
no schedule comes near it.
-/

namespace LoadShape.Number

/-- The integer nearest to `n / d`; a tie goes to the even neighbour. -/
def nearestEven (n d : Nat) : Nat :=
  if 2 * (n % d) < d then n / d
  else if d < 2 * (n % d) then n / d + 1
  else n / d + n / d % 2

@[simp]
theorem nearestEven_one (n : Nat) : nearestEven n 1 = n := by
  simp [nearestEven, Nat.mod_one]

/-- The greatest `e` with `2 ^ e ≤ n / d`, for positive `n` and `d`. -/
def floorLog2 (n d : Nat) : Int :=
  if d.log2 ≤ n.log2 then
    let k := n.log2 - d.log2
    if d <<< k ≤ n then k else k - 1
  else
    let k := d.log2 - n.log2
    if d ≤ n <<< k then -k else -k - 1

/-- The exponent of the smallest place that can be kept. -/
def leastPlace : Int := -1074

/-- The exponent of the last place that is kept of `n / d`. -/
def lastPlace (n d : Nat) : Int :=
  max leastPlace (floorLog2 n d - 52)

theorem leastPlace_le_lastPlace (n d : Nat) : leastPlace ≤ lastPlace n d := by
  unfold lastPlace
  omega

/-- How many units of the place `e` are nearest to `n / d`. -/
def unitsAt (e : Int) (n d : Nat) : Nat :=
  match e with
  | .ofNat k => nearestEven n (d <<< k)
  | .negSucc k => nearestEven (n <<< (k + 1)) d

/-- The number `m * 2 ^ e`. -/
def scaled (m : Int) (e : Int) : Rat :=
  match e with
  | .ofNat k => ((m <<< k : Int) : Rat)
  | .negSucc k => mkRat m (1 <<< (k + 1))

/-- The nearest number with 53 significant bits. -/
def rounded (x : Rat) : Rat :=
  let e := lastPlace x.num.natAbs x.den
  scaled (x.num.sign * unitsAt e x.num.natAbs x.den) e

@[simp]
theorem rounded_zero : rounded 0 = 0 := by
  decide +kernel

end LoadShape.Number
