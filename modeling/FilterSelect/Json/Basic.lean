/-
JSON values and their compact text.

A number is held as a whole number of 64 bits, signed or not, or else as a
double, so `1.0` is not the number `1`.  An object lists its members by key in
code point order, each key once; `Json.ofMembers` builds such a list.

The text has no white space and escapes only what it must: quotes, backslashes
and control characters.
-/
import FilterSelect.Directory
import FilterSelect.Number.Binary64.Shortest
import FilterSelect.Number.Integer64

namespace FilterSelect

namespace Json

/-- A JSON number. -/
inductive Number where
  | integer (n : Int) (inRange : -(1 <<< 63) ≤ n ∧ n < 1 <<< 64)
  | float (x : Binary64)
deriving DecidableEq

end Json

/-- A JSON value. -/
inductive Json where
  | null
  | bool (b : Bool)
  | number (n : Json.Number)
  | string (s : String)
  | array (items : List Json)
  | object (members : List (String × Json))

namespace Json

instance : Inhabited Json := ⟨.null⟩

/-! ### Numbers -/

/-- A natural number as a JSON number; none if it needs more than 64 bits. -/
def Number.ofNat? (n : Nat) : Option Number :=
  if h : n < 1 <<< 64 then some (.integer n ⟨by omega, by exact_mod_cast h⟩) else none

namespace Number

/-- The signed 64-bit integer that a number is written as, if it is. -/
def toInt64? : Number → Option Int64
  | .integer n _ => Integer64.ofInt? n
  | .float _ => none

/-- The nearest double. -/
def toBinary64 : Number → Binary64
  | .integer n _ => Binary64.ofInt n
  | .float x => x

/-- Doubles in JSON text: positional from `1e-5` and below `1e16`, always with a fraction. -/
def layout : Binary64.Layout :=
  ⟨some (-5), some 16, true, true, false⟩

/-- The text of a number. -/
def text : Number → List Char
  | .integer n _ => Text.signedDigits n
  | .float x => x.render layout

end Number

/-! ### Objects -/

/-- The object with these members, filed under their keys; the last one of each key is kept. -/
def ofMembers (members : List (String × Json)) : Json :=
  .object (Directory.ofList members : Directory Prod.fst).items

/-! ### Text -/

/-- A hexadecimal digit in lower case. -/
def hexDigit (n : Nat) : Char :=
  Nat.digitChar n

/-- One character between quotes. -/
def escapedChar (c : Char) : List Char :=
  if c = '"' then ['\\', '"']
  else if c = '\\' then ['\\', '\\']
  else if c = '\n' then ['\\', 'n']
  else if c = '\r' then ['\\', 'r']
  else if c = '\t' then ['\\', 't']
  else if c = '\x08' then ['\\', 'b']
  else if c = '\x0c' then ['\\', 'f']
  else if c.toNat < 0x20 then
    ['\\', 'u', '0', '0', hexDigit (c.toNat / 16), hexDigit (c.toNat % 16)]
  else [c]

/-- A string between quotes. -/
def stringText (s : String) : List Char :=
  '"' :: s.toList.flatMap escapedChar ++ ['"']

mutual

/-- The text of a value. -/
def text : Json → List Char
  | .null => "null".toList
  | .bool true => "true".toList
  | .bool false => "false".toList
  | .number n => n.text
  | .string s => stringText s
  | .array items => '[' :: itemsText items ++ [']']
  | .object members => '\x7b' :: membersText members ++ ['\x7d']

/-- Items with commas between them. -/
def itemsText : List Json → List Char
  | [] => []
  | [item] => item.text
  | item :: rest => item.text ++ ',' :: itemsText rest

/-- Members with commas between them. -/
def membersText : List (String × Json) → List Char
  | [] => []
  | [(key, value)] => stringText key ++ ':' :: value.text
  | (key, value) :: rest => stringText key ++ ':' :: value.text ++ ',' :: membersText rest

end

/-- The text of a value as a string. -/
def render (json : Json) : String :=
  String.ofList json.text

end Json

end FilterSelect
