import LoadShape.Number.Word
import LoadShape.Toml.Scan
import LoadShape.Toml.Value

/-!
# Numbers, dates and times

What begins with a sign or a digit: a date or a time, a number with a fraction or
an exponent, or a whole number of 64 bits.
-/

namespace LoadShape.Toml

open LoadShape.Number

/-! ## Digits -/

/-- The digits at the front, and what follows them.  A single underscore may stand
between two digits. -/
def moreDigits (isDigit : Char → Bool) : List Char → List Char × List Char
  | [] => ([], [])
  | '_' :: c :: rest =>
    if isDigit c then
      let (digits, rest) := moreDigits isDigit rest
      (c :: digits, rest)
    else ([], '_' :: c :: rest)
  | c :: rest =>
    if isDigit c then
      let (digits, rest) := moreDigits isDigit rest
      (c :: digits, rest)
    else ([], c :: rest)

/-- At least one digit. -/
def digits? (isDigit : Char → Bool) : Scanner (List Char)
  | [] => none
  | c :: rest =>
    if isDigit c then
      let (digits, rest) := moreDigits isDigit rest
      some (c :: digits, rest)
    else none

/-- A decimal numeral without superfluous zeros. -/
def decimal? : Scanner (List Char)
  | '0' :: rest => some (['0'], rest)
  | cs => digits? Char.isDigit cs

/-- Whether the text begins with a minus sign, and what follows its sign. -/
def splitSign : List Char → Bool × List Char
  | '-' :: rest => (true, rest)
  | '+' :: rest => (false, rest)
  | cs => (false, cs)

/-- The number with its sign. -/
def signed (negative : Bool) (n : Nat) : Int := if negative then -n else n

/-! ## Whole numbers -/

/-- The whole numbers of 64 bits. -/
def integerOf? (n : Int) : Option Value :=
  if signedMin ≤ n ∧ n ≤ signedMax then some (.integer n) else none

/-- A whole number in a base that is written in front of its digits. -/
def basedInteger? (base : Nat) (isDigit : Char → Bool) : Scanner Value := fun cs => do
  let (digits, rest) ← digits? isDigit cs
  let value ← integerOf? (digitsValue base digits)
  return (value, rest)

/-- A whole number. -/
def integer? : Scanner Value
  | '0' :: 'x' :: rest => basedInteger? 16 isHexDigit rest
  | '0' :: 'o' :: rest => basedInteger? 8 (fun c => '0' ≤ c && c ≤ '7') rest
  | '0' :: 'b' :: rest => basedInteger? 2 (fun c => c = '0' || c = '1') rest
  | cs => do
    let (negative, cs) := splitSign cs
    let (digits, rest) ← decimal? cs
    let value ← integerOf? (signed negative (Nat.ofDigitChars 10 digits 0))
    return (value, rest)

/-! ## Numbers with a fraction or an exponent -/

/-- An exponent, after its letter. -/
def exponent? : Scanner Int := fun cs => do
  let (negative, cs) := splitSign cs
  let (digits, rest) ← digits? Char.isDigit cs
  return (signed negative (Nat.ofDigitChars 10 digits 0), rest)

/-- The exponent at the front, or none. -/
def optionalExponent? : Scanner Int
  | 'e' :: rest => exponent? rest
  | 'E' :: rest => exponent? rest
  | cs => some (0, cs)

/-- Every value but a positive number that is too large. -/
def floatOf? : Binary64 → Option Value
  | .infinite false => none
  | x => some (.float x)

/-- A number with a fraction or an exponent. -/
def float? : Scanner Value := fun cs => do
  let (negative, cs) := splitSign cs
  let (whole, rest) ← decimal? cs
  match rest with
  | '.' :: rest => do
    let (fraction, rest) ← digits? Char.isDigit rest
    let (exponent, rest) ← optionalExponent? rest
    let digits := Nat.ofDigitChars 10 (whole ++ fraction) 0
    let value ← floatOf? (.ofDecimal negative digits (exponent - fraction.length))
    return (value, rest)
  | c :: rest =>
    if c = 'e' ∨ c = 'E' then do
      let (exponent, rest) ← exponent? rest
      let value ← floatOf? (.ofDecimal negative (Nat.ofDigitChars 10 whole 0) exponent)
      return (value, rest)
    else none
  | [] => none

/-- An infinity, or what is not a number. -/
def specialFloat? : Scanner Value := fun cs =>
  let (negative, cs) := splitSign cs
  match cs with
  | 'i' :: 'n' :: 'f' :: rest => some (.float (.infinite negative), rest)
  | 'n' :: 'a' :: 'n' :: rest => some (.float .notANumber, rest)
  | _ => none

/-! ## Dates and times -/

/-- A number of exactly `count` digits between the given bounds. -/
def fixedDigits? (count least greatest : Nat) : Scanner Nat := fun cs =>
  let digits := cs.take count
  let n := Nat.ofDigitChars 10 digits 0
  if digits.length = count ∧ digits.all Char.isDigit ∧ least ≤ n ∧ n ≤ greatest then
    some (n, cs.drop count)
  else none

/-- What follows the given character. -/
def expect? (c : Char) : List Char → Option (List Char)
  | d :: rest => if d = c then some rest else none
  | [] => none

/-- The number of days in a month. -/
def daysInMonth (year month : Nat) : Nat :=
  if month = 2 then
    if year % 4 = 0 ∧ (year % 100 ≠ 0 ∨ year % 400 = 0) then 29 else 28
  else if month = 4 ∨ month = 6 ∨ month = 9 ∨ month = 11 then 30
  else 31

/-- What follows a date. -/
def afterDate? (cs : List Char) : Option (List Char) := do
  let (year, cs) ← fixedDigits? 4 0 9999 cs
  let cs ← expect? '-' cs
  let (month, cs) ← fixedDigits? 2 1 12 cs
  let cs ← expect? '-' cs
  let (_, cs) ← fixedDigits? 2 1 (daysInMonth year month) cs
  return cs

/-- What follows a time of day; a leap second may be the sixty-first. -/
def afterTime? (cs : List Char) : Option (List Char) := do
  let (_, cs) ← fixedDigits? 2 0 23 cs
  let cs ← expect? ':' cs
  let (_, cs) ← fixedDigits? 2 0 59 cs
  let cs ← expect? ':' cs
  let (_, cs) ← fixedDigits? 2 0 60 cs
  match cs with
  | '.' :: rest =>
    let fraction := rest.takeWhile Char.isDigit
    return if fraction.isEmpty then cs else rest.drop fraction.length
  | cs => return cs

/-- What follows the distance of a time zone. -/
def afterZone? (cs : List Char) : Option (List Char) := do
  let (_, cs) ← fixedDigits? 2 0 23 cs
  let cs ← expect? ':' cs
  let (_, cs) ← fixedDigits? 2 0 59 cs
  return cs

/-- What follows a time of day after a date, and a time zone, as far as they are
there. -/
def afterClock (cs : List Char) : List Char :=
  match cs with
  | [] => []
  | c :: rest =>
    if c = 'T' ∨ c = 't' ∨ c = ' ' then
      match afterTime? rest with
      | none => cs
      | some rest =>
        match rest with
        | 'Z' :: rest => rest
        | 'z' :: rest => rest
        | '+' :: zone => (afterZone? zone).getD rest
        | '-' :: zone => (afterZone? zone).getD rest
        | rest => rest
    else cs

/-- A date, a time of day, or both. -/
def datetime? : Scanner Value := fun cs => do
  let rest ←
    match afterDate? cs with
    | some rest => some (afterClock rest)
    | none => afterTime? cs
  return (.datetime (String.ofList (cs.take (cs.length - rest.length))), rest)

/-! ## All of them -/

/-- What begins with a sign or a digit. -/
def number? : Scanner Value := fun cs =>
  datetime? cs <|> float? cs <|> specialFloat? cs <|> integer? cs

end LoadShape.Toml
