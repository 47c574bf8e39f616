/-
Constants as a database knows them.

Filters bring raw JSON scalars; what is compared with a column is a value of one
of the kinds below.  Each kind keeps all that its text can tell: a decimal its
scale, a time its nanoseconds.
-/
import FilterSelect.Calendar.Date
import FilterSelect.Number.Binary64.Shortest
import FilterSelect.Number.Decimal
import FilterSelect.Number.Integer64
import FilterSelect.Text.Literal

namespace FilterSelect

/-- A constant of one of the kinds that columns hold. -/
inductive Value where
  | null
  | bool (b : Bool)
  | integer (i : Int64)
  | float (x : Binary64)
  | decimal (d : Decimal)
  | string (s : String)
  | date (d : Date)
  | dateTime (t : DateTime)
  | time (t : Time)
deriving DecidableEq

namespace Value

/-- The text of a truth value in lower case. -/
def boolText (b : Bool) : List Char :=
  if b then "true".toList else "false".toList

/-- Doubles in descriptions: positional from `1e-4` and below `1e16`, always with a fraction. -/
def describedFloat : Binary64.Layout :=
  ⟨some (-4), some 16, true, false, true⟩

/-- The kind of a value, and its content where it has one. -/
def description : Value → String × Option (List Char)
  | .null => ("String", none)
  | .bool b => ("Bool", some (boolText b))
  | .integer i => ("BigInt", some (Integer64.text i))
  | .float x => ("Double", some (x.render describedFloat))
  | .decimal d => ("Decimal", some d.text)
  | .string s => ("String", some (Text.literal s))
  | .date d => ("ChronoDate", some d.text)
  | .dateTime t => ("ChronoDateTime", some (t.date.text ++ 'T' :: t.time.shortText))
  | .time t => ("ChronoTime", some t.shortText)

/-- The text for something that may be absent. -/
def optionText : Option (List Char) → List Char
  | none => "None".toList
  | some s => "Some(".toList ++ s ++ [')']

/-- A value that may be absent, with its kind and content. -/
def describe (found : Option Value) : String :=
  String.ofList <| optionText <| found.map fun v =>
    v.description.1.toList ++ '(' :: optionText v.description.2 ++ [')']

end Value

end FilterSelect
