import LoadShape.Text.Shown

/-!
# Quoted text

Text in quotation marks, in which quotation marks, backslashes and everything that
could not be seen are escaped.
-/

namespace LoadShape.Text

/-- One character within quotation marks. -/
def quotedChar (c : Char) : List Char :=
  if c = '\x00' then ['\\', '0']
  else if c = '\t' then ['\\', 't']
  else if c = '\n' then ['\\', 'n']
  else if c = '\r' then ['\\', 'r']
  else if c = '"' || c = '\\' then ['\\', c]
  else if isShown c then [c]
  else ['\\', 'u', '\x7b'] ++ Nat.toDigits 16 c.toNat ++ ['\x7d']

/-- The characters of a text in quotation marks. -/
def quote (cs : List Char) : List Char := '"' :: cs.flatMap quotedChar ++ ['"']

/-- A text in quotation marks. -/
def quoted (text : String) : String := String.ofList (quote text.toList)

end LoadShape.Text
