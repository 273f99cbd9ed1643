import LoadShape.Toml.Table

/-!
# Documents

Reading a document: its lines, and the table that they add up to.  Where the text is
not well-formed there is no table.
-/

namespace LoadShape.Toml

/-- A value; arrays and inline tables may hold up to `depth` further levels. -/
def value? : (depth : Nat) → Scanner Value
  | 0, cs => scalar? cs
  | depth + 1, cs =>
    match cs with
    | '[' :: rest =>
      (items? (value? depth) (rest.length + 1) rest).map fun (items, rest) => (.array items, rest)
    | '\x7b' :: rest => do
      let (assignments, rest) ← inlineBody? (value? depth) rest
      let entries ← tableOf? assignments
      return (.table entries, rest)
    | cs => scalar? cs

/-- What stands in the brackets of a header. -/
def headerKey? (inArray : Bool) : Scanner Statement := fun cs => do
  let ((path, key), rest) ← key? cs
  let rest ← expect? ']' rest
  let rest ← if inArray then expect? ']' rest else some rest
  return (.header ⟨path, key, inArray⟩, rest)

/-- A header or an assignment. -/
def statement? : Scanner Statement
  | '[' :: '[' :: rest => headerKey? true rest
  | '[' :: rest => headerKey? false rest
  | cs =>
    (assignment? (value? (depthLimit - 1)) cs).map fun (assignment, rest) =>
      (.assign assignment, rest)

/-- The statements of a text, at most one in a line. -/
def statements? : (fuel : Nat) → List Char → Option (List Statement)
  | 0, _ => none
  | fuel + 1, cs =>
    match skipBlanks cs with
    | [] => some []
    | c :: rest =>
      if c = '#' ∨ c = '\n' ∨ c = '\r' then do
        let rest ← lineEnd? (c :: rest)
        statements? fuel rest
      else do
        let (statement, rest) ← statement? (c :: rest)
        let rest ← lineEnd? rest
        let statements ← statements? fuel rest
        return statement :: statements

/-- The text without a byte order mark at its beginning. -/
def skipMark : List Char → List Char
  | '\uFEFF' :: rest => rest
  | cs => cs

/-- The table that a text stands for. -/
def read? (text : List Char) : Option Entries := do
  let cs := skipMark text
  let statements ← statements? (cs.length + 1) cs
  documentOf? statements

end LoadShape.Toml
