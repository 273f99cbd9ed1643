import LoadShape.Number.Word
import LoadShape.Text.Blank
import LoadShape.Time.Span

/-!
# Spans as text

A span is written as amounts of decreasing units, such as `1h 30m 5s`; units of
which there are none are left out.  A year has 365.25 days and a month is the
twelfth part of it, rounded to hundredths of a day.

Reading is more generous: each amount may use any of the names of its unit and
have a decimal fraction, a unit may come twice, and blanks may stand between an
amount and its unit and even between digits.  A fraction must be exact.
-/

namespace LoadShape.Time

open LoadShape.Number

/-! ## Writing -/

/-- A unit as it is written after one and after several. -/
structure WrittenUnit where
  nanos : Nat
  singular : String
  plural : String
  deriving DecidableEq, Repr

/-- The units that are written, from the longest to the shortest. -/
def writtenUnits : List WrittenUnit :=
  [⟨31557600 * nanosPerSecond, "year", "years"⟩,
   ⟨2630016 * nanosPerSecond, "month", "months"⟩,
   ⟨86400 * nanosPerSecond, "day", "days"⟩,
   ⟨3600 * nanosPerSecond, "h", "h"⟩,
   ⟨60 * nanosPerSecond, "m", "m"⟩,
   ⟨nanosPerSecond, "s", "s"⟩,
   ⟨1000000, "ms", "ms"⟩,
   ⟨1000, "us", "us"⟩,
   ⟨1, "ns", "ns"⟩]

/-- The amounts of the given units in `n` nanoseconds, each of what the longer
units leave. -/
def breakDown : List WrittenUnit → Nat → List (Nat × WrittenUnit)
  | [], _ => []
  | unit :: shorter, n => (n / unit.nanos, unit) :: breakDown shorter (n % unit.nanos)

/-- One amount with its unit. -/
def writeAmount (amount : Nat × WrittenUnit) : List Char :=
  Nat.toDigits 10 amount.1 ++
    (if amount.1 = 1 then amount.2.singular else amount.2.plural).toList

/-- The characters of a written span. -/
def Span.write (s : Span) : List Char :=
  if s.nanos = 0 then ['0', 's']
  else
    List.intercalate [' ']
      (((breakDown writtenUnits s.nanos).filter (·.1 ≠ 0)).map writeAmount)

/-- The text of a span. -/
def Span.text (s : Span) : String := String.ofList s.write

/-! ## Reading -/

/-- A unit as it is read: it is worth `count` grains, and `fraction` says in which
parts of it a decimal fraction must come out even, and how many there are. -/
structure ReadUnit where
  count : Nat
  grain : Nat
  fraction : Option (Nat × Nat)
  deriving DecidableEq, Repr

/-- The names of the units.  Fractions of hours and of longer units come out even
in seconds, of shorter units in nanoseconds; a nanosecond has none. -/
def readUnits : List (List String × ReadUnit) :=
  let s := nanosPerSecond
  [(["nanos", "nsec", "ns"], ⟨1, 1, none⟩),
   (["usec", "us", "µs"], ⟨1000, 1, some (1000, 1)⟩),
   (["millis", "msec", "ms"], ⟨1000000, 1, some (1000000, 1)⟩),
   (["seconds", "second", "secs", "sec", "s"], ⟨1, s, some (s, 1)⟩),
   (["minutes", "minute", "min", "mins", "m"], ⟨60, s, some (60 * s, 1)⟩),
   (["hours", "hour", "hrs", "hr", "h"], ⟨3600, s, some (3600, s)⟩),
   (["days", "day", "d"], ⟨86400, s, some (86400, s)⟩),
   (["weeks", "week", "wks", "wk", "w"], ⟨604800, s, some (604800, s)⟩),
   (["months", "month", "M"], ⟨2630016, s, some (2630016, s)⟩),
   (["years", "year", "yrs", "yr", "y"], ⟨31557600, s, some (31557600, s)⟩)]

/-- The unit with the given name. -/
def unitNamed? (name : List Char) : Option ReadUnit :=
  (readUnits.find? fun entry => entry.1.any (·.toList = name)).map (·.2)

/-- Characters that may stand in a numeral. -/
def inNumeral (c : Char) : Bool := c.isDigit || Text.isBlank c

/-- Characters that may stand in the name of a unit. -/
def inUnitName (c : Char) : Bool := c.isAlpha || c = 'µ'

/-- One amount as it stands in the text. -/
structure Amount where
  whole : List Char
  fraction? : Option (List Char)
  unitName : List Char
  deriving DecidableEq, Repr

/-- The digits at the front of the text, and what follows them. -/
def splitDigits (cs : List Char) : List Char × List Char :=
  ((cs.takeWhile inNumeral).filter Char.isDigit, cs.dropWhile inNumeral)

/-- The amount at the front of the text, and what follows it. -/
def splitAmount (cs : List Char) : Amount × List Char :=
  let (whole, rest) := splitDigits cs
  match rest with
  | '.' :: rest =>
    let (fraction, rest) := splitDigits rest
    (⟨whole, some fraction, rest.takeWhile inUnitName⟩, rest.dropWhile inUnitName)
  | rest => (⟨whole, none, rest.takeWhile inUnitName⟩, rest.dropWhile inUnitName)

/-- Numbers that fit the 64-bit words in which amounts are counted. -/
def word? (n : Nat) : Option Nat := if n ≤ wordMax then some n else none

/-- `count` grains more.  Grains below a second are counted together with the
subseconds that are there already. -/
def addGrains? (total count grain : Nat) : Option Nat :=
  if count ≤ wordMax ∧ (grain = 1 → total % nanosPerSecond + count ≤ wordMax) ∧
      total + count * grain < spanLimit then
    some (total + count * grain)
  else none

/-- The fraction of a unit with the given digits. -/
def addFraction? (total : Nat) (unit : ReadUnit) (digits : List Char) : Option Nat := do
  let (count, grain) ← unit.fraction
  let numerator ← word? (Nat.ofDigitChars 10 digits 0)
  let denominator ← word? (Nat.pow 10 digits.length)
  let scaled ← word? (numerator * count)
  if digits = [] ∨ scaled % denominator ≠ 0 then none
  else addGrains? total (scaled / denominator) grain

/-- One amount more. -/
def addAmount? (total : Nat) (a : Amount) : Option Nat := do
  let unit ← unitNamed? a.unitName
  let whole ← word? (Nat.ofDigitChars 10 a.whole 0)
  let sum ← addGrains? total (whole * unit.count) unit.grain
  match a.fraction? with
  | none => some sum
  | some digits => addFraction? sum unit digits

/-- The sum of the amounts in the text; each begins with a digit. -/
def sumAmounts? : Nat → Nat → List Char → Option Nat
  | 0, _, _ => none
  | fuel + 1, total, cs =>
    match cs with
    | [] => none
    | c :: _ =>
      if c.isDigit then
        let (amount, rest) := splitAmount cs
        match addAmount? total amount with
        | none => none
        | some sum =>
          match rest with
          | [] => some sum
          | d :: _ =>
            if d.isDigit then sumAmounts? fuel sum rest
            else if Text.isBlank d then
              match rest.dropWhile Text.isBlank with
              | [] => some sum
              | next => sumAmounts? fuel sum next
            else none
      else none

/-- The span that the text stands for.  A lone zero needs no unit. -/
def Span.read? (cs : List Char) : Option Span :=
  if cs = ['0'] then some .zero
  else (sumAmounts? (cs.length + 1) 0 (cs.dropWhile Text.isBlank)).map .ofNanos

end LoadShape.Time
