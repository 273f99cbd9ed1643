import LoadShape.Text.Numeral
import LoadShape.Toml.Scan
import LoadShape.Toml.Value

/-!
# Printing documents

A document of one level: tables with numbers and strings, each table under its
header and the tables apart by an empty line.
-/

namespace LoadShape.Toml

/-- A value that is printed within a line. -/
inductive Printable where
  | integer (n : Int)
  | string (cs : List Char)
  deriving DecidableEq, Repr

/-- The value that is printed. -/
def Printable.value : Printable → Value
  | .integer n => .integer n
  | .string cs => .string (String.ofList cs)

/-- A table that is printed: its name and its entries. -/
structure PrintedTable where
  name : List Char
  entries : List (List Char × Printable)
  deriving DecidableEq, Repr

/-- The entries of the table. -/
def PrintedTable.values (t : PrintedTable) : Entries :=
  t.entries.map fun entry => (String.ofList entry.1, entry.2.value)

/-- Four hexadecimal digits. -/
def fourDigits (n : Nat) : List Char :=
  [n / 4096 % 16, n / 256 % 16, n / 16 % 16, n % 16].map Nat.digitChar

/-- One character of a string in quotation marks. -/
def escapeChar (c : Char) : List Char :=
  if c = '"' then ['\\', '"']
  else if c = '\\' then ['\\', '\\']
  else if isPlain c then [c]
  else '\\' :: 'u' :: fourDigits c.toNat

/-- The text of a value. -/
def Printable.print : Printable → List Char
  | .integer n => Text.numeral n
  | .string cs => '"' :: cs.flatMap escapeChar ++ ['"']

/-- The line of an entry. -/
def printEntry (entry : List Char × Printable) : List Char :=
  entry.1 ++ [' ', '=', ' '] ++ entry.2.print ++ ['\n']

/-- The lines of a table. -/
def PrintedTable.print (t : PrintedTable) : List Char :=
  '[' :: t.name ++ [']', '\n'] ++ t.entries.flatMap printEntry

/-- The text of a document. -/
def print (tables : List PrintedTable) : List Char :=
  List.intercalate ['\n'] (tables.map PrintedTable.print)

end LoadShape.Toml
