/-!
# Scanning

The smallest parts of a document: blanks, line ends, strings and keys.  A scanner
reads one part from the front of the text and returns it with what follows; where
the text holds no such part, there is nothing.
-/

namespace LoadShape.Toml

/-- Reads an `α` from the front of a text and returns it with what follows. -/
abbrev Scanner (α : Type) := List Char → Option (α × List Char)

/-! ## Blanks and line ends -/

/-- Blanks within a line. -/
def isBlank (c : Char) : Bool := c = ' ' || c = '\t'

/-- Characters of comments and strings: all but the control characters other than
the tabulator. -/
def isPlain (c : Char) : Bool := c = '\t' || (0x20 ≤ c.toNat && c.toNat ≠ 0x7F)

/-- What follows the blanks at the front. -/
def skipBlanks (cs : List Char) : List Char := cs.dropWhile isBlank

/-- What follows a line end. -/
def newline? : List Char → Option (List Char)
  | '\n' :: rest => some rest
  | '\r' :: '\n' :: rest => some rest
  | _ => none

/-- What follows a comment, if there is one. -/
def skipComment : List Char → List Char
  | '#' :: rest => rest.dropWhile isPlain
  | cs => cs

/-- What follows the rest of a line that holds at most a comment. -/
def lineEnd? (cs : List Char) : Option (List Char) :=
  match skipComment (skipBlanks cs) with
  | [] => some []
  | cs => newline? cs

/-- What follows blanks, line ends and comments; `inComment` says that a comment
has begun. -/
def skipSpace (inComment : Bool) : List Char → List Char
  | [] => []
  | '\n' :: rest => skipSpace false rest
  | '\r' :: '\n' :: rest => skipSpace false rest
  | c :: rest =>
    if inComment then if isPlain c then skipSpace true rest else c :: rest
    else if isBlank c then skipSpace false rest
    else if c = '#' then skipSpace true rest
    else c :: rest

/-! ## Strings -/

/-- The result with one more character in front. -/
def consChar (c : Char) (found : Option (List Char × List Char)) :
    Option (List Char × List Char) :=
  found.map fun (cs, rest) => (c :: cs, rest)

/-- What a backslash and the given character stand for. -/
def simpleEscape? (c : Char) : Option Char :=
  if c = '"' then some '"'
  else if c = '\\' then some '\\'
  else if c = 'b' then some '\x08'
  else if c = 'f' then some '\x0c'
  else if c = 'n' then some '\n'
  else if c = 'r' then some '\r'
  else if c = 't' then some '\t'
  else none

/-- Whether the character is a hexadecimal digit. -/
def isHexDigit (c : Char) : Bool :=
  c.isDigit || ('a' ≤ c && c ≤ 'f') || ('A' ≤ c && c ≤ 'F')

/-- The worth of a hexadecimal digit. -/
def hexValue (c : Char) : Nat :=
  if c.isDigit then c.toNat - '0'.toNat
  else if 'a' ≤ c then c.toNat - 'a'.toNat + 10
  else c.toNat - 'A'.toNat + 10

/-- The number that digits stand for in the given base. -/
def digitsValue (base : Nat) (digits : List Char) : Nat :=
  digits.foldl (fun n c => n * base + hexValue c) 0

/-- The character with the given hexadecimal code point. -/
def codePoint? (digits : List Char) : Option Char :=
  let code := digitsValue 16 digits
  if digits.all isHexDigit ∧ code.isValidChar then some (Char.ofNat code) else none

/-- The character that an escape stands for, after its backslash. -/
def escape? : Scanner Char
  | 'u' :: a :: b :: c :: d :: rest => (codePoint? [a, b, c, d]).map (·, rest)
  | 'U' :: a :: b :: c :: d :: e :: f :: g :: h :: rest =>
    (codePoint? [a, b, c, d, e, f, g, h]).map (·, rest)
  | c :: rest => (simpleEscape? c).map (·, rest)
  | [] => none

/-- The body of a string in quotation marks, after the opening one. -/
def basicBody? : (fuel : Nat) → Scanner (List Char)
  | 0, _ => none
  | _, [] => none
  | fuel + 1, c :: rest =>
    if c = '"' then some ([], rest)
    else if c = '\\' then
      match escape? rest with
      | some (e, rest) => consChar e (basicBody? fuel rest)
      | none => none
    else if isPlain c then consChar c (basicBody? fuel rest)
    else none

/-- A string in quotation marks, after the opening one. -/
def basicString? : Scanner String := fun cs =>
  (basicBody? (cs.length + 1) cs).map fun (body, rest) => (String.ofList body, rest)

/-- A string in apostrophes, after the opening one: it has no escapes. -/
def literalString? : Scanner String := fun cs =>
  let body := cs.takeWhile fun c => isPlain c && c ≠ '\x27'
  match cs.drop body.length with
  | '\x27' :: rest => some (String.ofList body, rest)
  | _ => none

/-- What a string of several lines finds at a run of its delimiter: up to two belong
to the text, three more end it. -/
def closing (delimiter : Char) (cs : List Char) : Option (List Char × List Char) :=
  let run := (cs.takeWhile (· = delimiter)).length
  if run < 3 then none
  else
    let kept := min (run - 3) 2
    some (List.replicate kept delimiter, cs.drop (kept + 3))

/-- What follows blanks and line ends. -/
def skipLines : List Char → List Char
  | '\n' :: rest => skipLines rest
  | '\r' :: '\n' :: rest => skipLines rest
  | c :: rest => if isBlank c then skipLines rest else c :: rest
  | [] => []

/-- What follows a backslash at the end of a line: the text goes on with the next
character that is neither blank nor a line end. -/
def lineContinuation? (cs : List Char) : Option (List Char) :=
  (newline? (skipBlanks cs)).map skipLines

/-- The body of a string of several lines, after the opening delimiter.  Every line
end in it is a single line feed. -/
def longBody? (delimiter : Char) : (fuel : Nat) → Scanner (List Char)
  | 0, _ => none
  | _, [] => none
  | fuel + 1, c :: rest =>
    match closing delimiter (c :: rest) with
    | some found => some found
    | none =>
      match newline? (c :: rest) with
      | some rest => consChar '\n' (longBody? delimiter fuel rest)
      | none =>
        if c = '\\' ∧ delimiter = '"' then
          match lineContinuation? rest with
          | some rest => longBody? delimiter fuel rest
          | none =>
            match escape? rest with
            | some (e, rest) => consChar e (longBody? delimiter fuel rest)
            | none => none
        else if isPlain c then consChar c (longBody? delimiter fuel rest)
        else none

/-- A string of several lines, after the opening delimiter; a line end right there
does not count. -/
def longString? (delimiter : Char) : Scanner String := fun cs =>
  let cs := (newline? cs).getD cs
  (longBody? delimiter (cs.length + 1) cs).map fun (body, rest) => (String.ofList body, rest)

/-! ## Keys -/

/-- Characters of keys without quotation marks. -/
def isBareKey (c : Char) : Bool := c.isAlphanum || c = '_' || c = '-'

/-- One part of a key. -/
def simpleKey? : Scanner String
  | '"' :: rest => basicString? rest
  | '\x27' :: rest => literalString? rest
  | cs =>
    let key := cs.takeWhile isBareKey
    if key.isEmpty then none else some (String.ofList key, cs.drop key.length)

/-- The first of how many levels is too deep for a key or a value. -/
def depthLimit : Nat := 80

/-- A key of fewer than `limit + 1` parts, with points between them and blanks around
them.  The last part is returned apart from those before it. -/
def dottedKey? : (limit : Nat) → Scanner (List String × String)
  | 0, _ => none
  | limit + 1, cs =>
    match simpleKey? (skipBlanks cs) with
    | none => none
    | some (part, rest) =>
      match skipBlanks rest with
      | '.' :: rest =>
        (dottedKey? limit rest).map fun ((path, last), rest) => ((part :: path, last), rest)
      | rest => some (([], part), rest)

/-- A key, with its parents. -/
def key? : Scanner (List String × String) := dottedKey? (depthLimit - 1)

end LoadShape.Toml
