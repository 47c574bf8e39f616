/-
Schema files.

A schema file lists entities.  The schema it makes is accepted only if every
relationship leads to an entity that is part of it.
-/
import FilterSelect.Schema.Json

namespace FilterSelect

open Json

/-- The content of a schema file. -/
structure SchemaFile where
  entities : List Entity
deriving DecidableEq, Repr

/-- A relationship whose target is missing. -/
structure DanglingRelationship where
  relationship : String
  entity : String
  target : String
deriving DecidableEq, Repr

namespace SchemaFile

/-- The first relationship of an entity whose target is missing. -/
def danglingIn? (schema : Schema) (e : Entity) : Option DanglingRelationship :=
  (e.relationships.find? fun r => (schema.find? r.target).isNone).map fun r =>
    ⟨r.name, e.name, r.target⟩

/-- The schema of a file. -/
def toSchema (file : SchemaFile) : Except DanglingRelationship Schema :=
  let schema : Schema := Directory.ofList file.entities
  match schema.items.findSome? (danglingIn? schema) with
  | some dangling => .error dangling
  | none => .ok schema

/-- The written form of a schema file. -/
def toJson (file : SchemaFile) : Json :=
  .object [("entities", .array (file.entities.map Entity.toJson))]

/-- Reads a schema file. -/
def ofDocument? (d : Document) : Option SchemaFile := do
  let fields ← d.fields? ["entities"]
  let entities ← fields.withDefault "entities" [] (Document.list? Entity.ofDocument?)
  some ⟨entities⟩

end SchemaFile

end FilterSelect
