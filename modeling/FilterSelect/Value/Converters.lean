/-
Which reader serves which column type.

A table of converters is searched in order, and the first entry whose type the
column's type is or specialises gives the converter.  In the built-in table the
entry for floats therefore stands before the one for numeric types, which would
take floats too.  A column type without an entry takes scalars as they are.

A host may bring its own table; an empty one counts as none.
-/
import FilterSelect.Schema.ColumnType
import FilterSelect.Value.Reading

namespace FilterSelect

/-- Reads a raw scalar at a reading of the clock. -/
abbrev Converter := DateTime → Json → Except Refusal Value

/-- Converters with the types they are registered for, in order of precedence. -/
abbrev Converters := List (ColumnType × Converter)

namespace Converters

/-- The built-in table. -/
def builtIn : Converters :=
  [(.integer, fun _ raw => (Value.readInteger raw).map .integer),
    (.float, fun _ raw => (Value.readFloat raw).map .float),
    (.numeric, fun _ raw => (Value.readDecimal raw).map .decimal),
    (.date, fun clock raw => (Value.readDate clock raw).map .date),
    (.dateTime, fun clock raw => (Value.readDateTime clock raw).map .dateTime),
    (.time, fun clock raw => (Value.readTime clock raw).map .time),
    (.boolean, fun _ raw => (Value.readBool raw).map .bool)]

/-- The converter for columns of a type. -/
def find? (table : Converters) (type : ColumnType) : Option Converter :=
  (List.find? (fun entry => type.isA entry.1) table).map Prod.snd

/-- The host's table if it has entries, otherwise the built-in one. -/
def orBuiltIn (given : Option Converters) : Converters :=
  match given with
  | none | some [] => builtIn
  | some table => table

/-- Converts a raw scalar for columns of a type. -/
def convert (given : Option Converters) (clock : DateTime) (type : ColumnType) (raw : Json) :
    Except Refusal Value :=
  match (orBuiltIn given).find? type with
  | some converter => converter clock raw
  | none => Value.ofScalar raw

/-- The types of a table in order, for a listing. -/
def describe (table : Converters) : String :=
  let entryText (type : ColumnType) : List Char :=
    match type with
    | .custom name => "Custom(".toList ++ Text.literal name ++ [')']
    | named => named.name.toList
  String.ofList ('[' :: [',', ' '].intercalate (table.map fun entry => entryText entry.1) ++ [']'])

end Converters

end FilterSelect
