/-
Reading raw scalars as values of one kind.

A raw scalar is JSON: a number may stand for itself or be written in a string, and
a string may have white space around it.  Each reader accepts one kind of value
and refuses everything else with a reason; no reader cuts a number down to fit or
rounds an integer.
-/
import FilterSelect.Calendar.Reader
import FilterSelect.Json.Basic
import FilterSelect.Number.Binary64.Reader
import FilterSelect.Number.Decimal.Reader
import FilterSelect.Value.Basic

namespace FilterSelect

/-- Why a raw scalar is no value of the wanted kind. -/
inductive Refusal where
  | notString (raw : Json)
  | notScalar
  | integerOutOfRange (n : Json.Number)
  | integer (fault : Integer64.Fault)
  | float (fault : Binary64.Fault)
  | infinite (negative : Bool)
  | notANumber
  | decimal (fault : Decimal.Fault)
  /-- A text, in lower case, that is no truth value. -/
  | notBoolean (text : String)
  | moment (fault : Calendar.Fault)
  /-- A host's reason, in its own words. -/
  | host (reason : String)

/-- The wording of a refusal. -/
def Refusal.message : Refusal → String
  | .notString raw => "expected a string, got " ++ raw.render
  | .notScalar => "only scalar values can be compared"
  | .integerOutOfRange n => String.ofList n.text ++ " is not an integer in range"
  | .integer fault => fault.message
  | .float fault => fault.message
  | .infinite negative => (if negative then "-inf" else "inf") ++ " is not a finite number"
  | .notANumber => "NaN is not a finite number"
  | .decimal fault => fault.message
  | .notBoolean text => "'" ++ text ++ "' is not a boolean"
  | .moment fault => fault.message
  | .host reason => reason

namespace Value

/-! ### Text -/

/-- The characters of a string, without the white space around them. -/
def readText : Json → Except Refusal (List Char)
  | .string s => .ok (Text.trim s.toList)
  | raw => .error (.notString raw)

/-- Reads a string with `read`. -/
def readTextWith {α ε : Type} (read : List Char → Except ε α) (refusal : ε → Refusal)
    (raw : Json) : Except Refusal α :=
  match readText raw with
  | .error r => .error r
  | .ok s =>
    match read s with
    | .ok a => .ok a
    | .error fault => .error (refusal fault)

/-! ### Numbers -/

/-- The integer that a JSON number equals, however the number is written. -/
def integerOf? : Json.Number → Option Int64
  | .integer n _ => Integer64.ofInt? n
  | .float x => x.toInt?.bind Integer64.ofInt?

/-- Reads an integer: a number that is one, or its digits in a string. -/
def readInteger : Json → Except Refusal Int64
  | .number n =>
    match integerOf? n with
    | some i => .ok i
    | none => .error (.integerOutOfRange n)
  | raw => readTextWith Integer64.read .integer raw

/-- Reads a finite double. -/
def readFloat : Json → Except Refusal Binary64
  | .number n => .ok n.toBinary64
  | raw =>
    match readTextWith Binary64.read .float raw with
    | .ok (.finite x) => .ok x
    | .ok (.infinite negative) => .error (.infinite negative)
    | .ok .notANumber => .error .notANumber
    | .error r => .error r

/-- Reads a decimal; a number is read from its own text. -/
def readDecimal : Json → Except Refusal Decimal
  | .number n =>
    match Decimal.read n.text with
    | .ok d => .ok d
    | .error fault => .error (.decimal fault)
  | raw => readTextWith Decimal.read .decimal raw

/-! ### Truth values -/

/-- The truth value that a word in lower case names. -/
def boolOfWord? (word : String) : Option Bool :=
  if word ∈ ["true", "1", "yes", "on"] then some true
  else if word ∈ ["false", "0", "no", "off"] then some false
  else none

/-- Reads a truth value: itself, one of the integers 0 and 1, or a word in a string. -/
def readBool : Json → Except Refusal Bool
  | .bool b => .ok b
  | .number n =>
    if n.toInt64? = some 0 then .ok false
    else if n.toInt64? = some 1 then .ok true
    else .error (.notString (.number n))
  | raw =>
    match readText raw with
    | .error r => .error r
    | .ok s =>
      let word := String.ofList (Text.lower s)
      match boolOfWord? word with
      | some b => .ok b
      | none => .error (.notBoolean word)

/-! ### Dates and times -/

/-- Reads a date at this reading of the clock. -/
def readDate (clock : DateTime) : Json → Except Refusal Date :=
  readTextWith (Calendar.readDate clock) .moment

/-- Reads a date with a time at this reading of the clock. -/
def readDateTime (clock : DateTime) : Json → Except Refusal DateTime :=
  readTextWith (Calendar.readDateTime clock) .moment

/-- Reads a time of day at this reading of the clock. -/
def readTime (clock : DateTime) : Json → Except Refusal Time :=
  readTextWith (Calendar.readTime clock) .moment

/-! ### Any scalar -/

/-- The value that a scalar is without any conversion. -/
def ofScalar : Json → Except Refusal Value
  | .null => .ok .null
  | .bool b => .ok (.bool b)
  | .string s => .ok (.string s)
  | .number n =>
    match n.toInt64? with
    | some i => .ok (.integer i)
    | none => .ok (.float n.toBinary64)
  | .array _ | .object _ => .error .notScalar

end Value

end FilterSelect
