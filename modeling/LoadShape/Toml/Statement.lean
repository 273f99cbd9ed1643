import LoadShape.Toml.Number

/-!
# Statements

The lines of a document: headers of tables and assignments of values to keys.  An
inline table is a list of assignments too; `Table` says what they add up to.
-/

namespace LoadShape.Toml

/-- A value for a key; `path` holds the parents of the key. -/
structure Assignment where
  path : List String
  key : String
  value : Value

/-- What a header opens: a table, or one more table of an array. -/
structure Header where
  path : List String
  key : String
  inArray : Bool

/-- A line of a document. -/
inductive Statement where
  | header (header : Header)
  | assign (assignment : Assignment)

/-- The items of an array, after its opening bracket.  A comma may follow the last
item. -/
def items? (value? : Scanner Value) : (fuel : Nat) → Scanner (List Value)
  | 0, _ => none
  | fuel + 1, cs =>
    match skipSpace false cs with
    | ']' :: rest => some ([], rest)
    | cs => do
      let (item, rest) ← value? cs
      match skipSpace false rest with
      | ']' :: rest => return ([item], rest)
      | ',' :: rest => do
        let (items, rest) ← items? value? fuel rest
        return (item :: items, rest)
      | _ => none

/-- A key, an equals sign and a value. -/
def assignment? (value? : Scanner Value) : Scanner Assignment := fun cs => do
  let ((path, key), rest) ← key? cs
  let rest ← expect? '=' rest
  let (value, rest) ← value? (skipBlanks rest)
  return (⟨path, key, value⟩, rest)

/-- The assignments of an inline table, of which there is at least one. -/
def assignments? (value? : Scanner Value) : (fuel : Nat) → Scanner (List Assignment)
  | 0, _ => none
  | fuel + 1, cs => do
    let (assignment, rest) ← assignment? value? cs
    match skipBlanks rest with
    | '\x7d' :: rest => return ([assignment], rest)
    | ',' :: rest => do
      let (assignments, rest) ← assignments? value? fuel rest
      return (assignment :: assignments, rest)
    | _ => none

/-- The assignments of an inline table, after its opening brace. -/
def inlineBody? (value? : Scanner Value) : Scanner (List Assignment) := fun cs =>
  match skipBlanks cs with
  | '\x7d' :: rest => some ([], rest)
  | cs => assignments? value? (cs.length + 1) cs

/-- A value that is neither an array nor a table. -/
def scalar? : Scanner Value
  | '"' :: '"' :: '"' :: rest => (longString? '"' rest).map fun (s, rest) => (.string s, rest)
  | '"' :: rest => (basicString? rest).map fun (s, rest) => (.string s, rest)
  | '\x27' :: '\x27' :: '\x27' :: rest =>
    (longString? '\x27' rest).map fun (s, rest) => (.string s, rest)
  | '\x27' :: rest => (literalString? rest).map fun (s, rest) => (.string s, rest)
  | 't' :: 'r' :: 'u' :: 'e' :: rest => some (.boolean true, rest)
  | 'f' :: 'a' :: 'l' :: 's' :: 'e' :: rest => some (.boolean false, rest)
  | c :: rest =>
    if c.isDigit ∨ c = '+' ∨ c = '-' then number? (c :: rest)
    else specialFloat? (c :: rest)
  | [] => none

end LoadShape.Toml
