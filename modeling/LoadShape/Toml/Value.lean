import LoadShape.Number.Binary64

/-!
# Values of a document

A document is a table: keys with values, in the order in which they were written.
-/

namespace LoadShape.Toml

open LoadShape.Number

/-- A value. -/
inductive Value where
  | string (text : String)
  | integer (n : Int)
  | float (x : Binary64)
  | boolean (b : Bool)
  /-- A date, a time, or both, as it was written. -/
  | datetime (text : String)
  | array (items : List Value)
  | table (entries : List (String × Value))

/-- The entries of a table, in the order in which they were written. -/
abbrev Entries := List (String × Value)

end LoadShape.Toml
