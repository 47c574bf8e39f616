/-
The relational model that queries are resolved against.

An entity stands for one table.  It has columns and relationships, and both are
reached by name; a column hides a relationship of the same name.  A schema files
its entities under their names, a later entity in place of an earlier one.
-/
import FilterSelect.Directory
import FilterSelect.Schema.ColumnType

namespace FilterSelect

/-- A column of a table. -/
structure Column where
  name : String
  type : ColumnType
deriving DecidableEq, Repr

/-- How many rows of either side belong together. -/
inductive Cardinality where
  | manyToOne
  | oneToMany
  | oneToOne
deriving DecidableEq, Repr

/--
A link from one entity to another: rows belong together where the local column
equals the remote column.
-/
structure Relationship where
  name : String
  /-- The name of the entity at the far end. -/
  target : String
  kind : Cardinality
  localColumn : String
  remoteColumn : String
deriving DecidableEq, Repr

namespace Relationship

/-- A link whose foreign key is on the near side. -/
def manyToOne (name target foreignKey targetKey : String) : Relationship :=
  ⟨name, target, .manyToOne, foreignKey, targetKey⟩

/-- A link whose foreign key is on the far side. -/
def oneToMany (name target localKey foreignKey : String) : Relationship :=
  ⟨name, target, .oneToMany, localKey, foreignKey⟩

end Relationship

/-- What a name denotes on an entity. -/
inductive Attribute where
  | column (c : Column)
  | relationship (r : Relationship)
deriving DecidableEq, Repr

/-- A table with its columns and the links to other entities. -/
structure Entity where
  name : String
  table : String
  columns : List Column
  relationships : List Relationship
deriving DecidableEq, Repr

namespace Entity

/-- What a name denotes: the first column of that name, or else the first relationship. -/
def attribute? (e : Entity) (name : String) : Option Attribute :=
  match e.columns.find? fun c => c.name == name with
  | some c => some (.column c)
  | none => (e.relationships.find? fun r => r.name == name).map .relationship

/-- The column that a name denotes. -/
def column? (e : Entity) (name : String) : Option Column :=
  match e.attribute? name with
  | some (.column c) => some c
  | _ => none

/-- The relationship that a name denotes. -/
def relationship? (e : Entity) (name : String) : Option Relationship :=
  match e.attribute? name with
  | some (.relationship r) => some r
  | _ => none

end Entity

/-- All entities, filed under their names. -/
abbrev Schema := Directory Entity.name

/-! ### Names that resolve -/

theorem Entity.name_of_column? {e : Entity} {name : String} {c : Column}
    (h : e.column? name = some c) : c.name = name := by
  unfold Entity.column? Entity.attribute? at h
  split at h
  · rename_i c' heq
    cases hf : e.columns.find? (fun c => c.name == name) with
    | none => simp [hf] at heq
    | some d =>
      simp only [hf, Option.some.injEq, Attribute.column.injEq] at heq h
      subst heq h
      simpa using List.find?_some hf
  · cases h

theorem Schema.name_of_find? {schema : Schema} {name : String} {e : Entity}
    (h : schema.find? name = some e) : e.name = name := by
  simpa using List.find?_some h

end FilterSelect
