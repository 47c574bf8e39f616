/-
Schemas in JSON.

Names of types and cardinalities are in snake case.  A type of the host is an
object with the only key `custom`.  Every written form has all its fields, and
reading accepts what `Json.Decode` says about structures: arrays of fields,
unknown members, and default values for the two lists of an entity.
-/
import FilterSelect.Schema.Basic
import FilterSelect.Json.Decode

namespace FilterSelect

open Json

/-! ### Types -/

namespace ColumnType

/-- The types that are written as a name alone. -/
def named : List (String × ColumnType) :=
  [("integer", .integer), ("small_integer", .smallInteger), ("big_integer", .bigInteger),
    ("numeric", .numeric), ("decimal", .decimal), ("float", .float), ("double", .double),
    ("string", .string), ("text", .text), ("unicode", .unicode), ("unicode_text", .unicodeText),
    ("enum", .enum), ("date", .date), ("date_time", .dateTime), ("time", .time),
    ("boolean", .boolean), ("json", .json)]

/-- The written form of a type. -/
def toJson : ColumnType → Json
  | .custom name => .object [("custom", .string name)]
  | t =>
    match named.find? fun entry => entry.2 == t with
    | some entry => .string entry.1
    | none => .null

/-- Reads a type. -/
def ofDocument? : Document → Option ColumnType
  | .object [(some "custom", .string name)] => some (.custom name)
  | d => d.name?.bind fun name => named.lookup name

end ColumnType

/-! ### Columns and relationships -/

namespace Column

/-- The written form of a column. -/
def toJson (c : Column) : Json :=
  .object [("name", .string c.name), ("type", c.type.toJson)]

/-- Reads a column. -/
def ofDocument? (d : Document) : Option Column := do
  let fields ← d.fields? ["name", "type"]
  let name ← fields.required "name" Document.string?
  let type ← fields.required "type" ColumnType.ofDocument?
  some ⟨name, type⟩

end Column

namespace Cardinality

/-- The name of a cardinality. -/
def jsonName : Cardinality → String
  | .manyToOne => "many_to_one"
  | .oneToMany => "one_to_many"
  | .oneToOne => "one_to_one"

/-- The cardinality of this name. -/
def ofJsonName? (name : String) : Option Cardinality :=
  [manyToOne, oneToMany, oneToOne].find? fun kind => kind.jsonName == name

end Cardinality

namespace Relationship

/-- The written form of a relationship. -/
def toJson (r : Relationship) : Json :=
  .object [("kind", .string r.kind.jsonName), ("local_column", .string r.localColumn),
    ("name", .string r.name), ("remote_column", .string r.remoteColumn),
    ("target", .string r.target)]

/-- Reads a relationship. -/
def ofDocument? (d : Document) : Option Relationship := do
  let fields ← d.fields? ["name", "target", "kind", "local_column", "remote_column"]
  let name ← fields.required "name" Document.string?
  let target ← fields.required "target" Document.string?
  let kind ← fields.required "kind" fun d => d.name?.bind Cardinality.ofJsonName?
  let localColumn ← fields.required "local_column" Document.string?
  let remoteColumn ← fields.required "remote_column" Document.string?
  some ⟨name, target, kind, localColumn, remoteColumn⟩

end Relationship

/-! ### Entities -/

namespace Attribute

/-- The written form of what a name denotes. -/
def toJson : Attribute → Json
  | .column c => c.toJson
  | .relationship r => r.toJson

end Attribute

namespace Entity

/-- The written form of an entity. -/
def toJson (e : Entity) : Json :=
  .object [("columns", .array (e.columns.map Column.toJson)), ("name", .string e.name),
    ("relationships", .array (e.relationships.map Relationship.toJson)),
    ("table", .string e.table)]

/-- Reads an entity. -/
def ofDocument? (d : Document) : Option Entity := do
  let fields ← d.fields? ["name", "table", "columns", "relationships"]
  let name ← fields.required "name" Document.string?
  let table ← fields.required "table" Document.string?
  let columns ← fields.withDefault "columns" [] (Document.list? Column.ofDocument?)
  let relationships ←
    fields.withDefault "relationships" [] (Document.list? Relationship.ofDocument?)
  some ⟨name, table, columns, relationships⟩

end Entity

end FilterSelect
