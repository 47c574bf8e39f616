/-
String literals.

Where a listing has to show a name beyond doubt, the name stands between double
quotes and every character that would not show is written as an escape.
-/
import FilterSelect.Text.Visible

namespace FilterSelect

namespace Text

/-- One character of a literal. -/
def literalChar (c : Char) : List Char :=
  if c = '"' then ['\\', '"']
  else if c = '\\' then ['\\', '\\']
  else if c = '\n' then ['\\', 'n']
  else if c = '\r' then ['\\', 'r']
  else if c = '\t' then ['\\', 't']
  else if c.toNat = 0 then ['\\', '0']
  else if isVisible c then [c]
  else ['\\', 'u', '\x7b'] ++ Nat.toDigits 16 c.toNat ++ ['\x7d']

/-- A text between quotes. -/
def literal (s : String) : List Char :=
  '"' :: s.toList.flatMap literalChar ++ ['"']

end Text

end FilterSelect
