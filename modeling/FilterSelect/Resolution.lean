/-
Resolving logical names to columns.

A name is bound to a column at the end of a path of relationships.  Every step of
the path is a join, and within one query each distinct beginning of a path is
joined only once: the entities joined so far are listed with the path that led to
them, and a name whose path begins with a listed one starts from there.

Resolving only plans: it finds the column and the joins that are still missing.
Applying a name carries the plan out.  So a name that cannot be resolved leaves
the statement as it was.

The k-th join of a query has the alias `table_k`.
-/
import FilterSelect.Binding.Basic
import FilterSelect.Fault
import FilterSelect.Schema.Basic
import FilterSelect.Select.Basic

namespace FilterSelect

/-- What logical names are resolved against: a schema, the root entity, and bindings. -/
structure Scope where
  schema : Schema
  model : Entity
  bindings : Bindings

/-- An entity that has been joined, under its alias and by the path that leads to it. -/
structure JoinedEntity where
  path : List String
  aliasName : String
  entity : String
deriving DecidableEq, Repr

/-- A join that a name needs and the query lacks. -/
structure PendingJoin where
  path : List String
  entity : String
  join : Join
deriving DecidableEq, Repr

/-- A resolved name: its column, its path, and the joins that are missing, outermost first. -/
structure Resolution where
  field : Field
  path : List String
  pending : List PendingJoin
deriving DecidableEq, Repr

/-- A statement under construction, with the entities joined into it in order. -/
structure Draft where
  select : Select
  joined : List JoinedEntity
deriving DecidableEq

/-- What a pending join will be listed as. -/
def PendingJoin.joined (p : PendingJoin) : JoinedEntity :=
  ⟨p.path, p.join.aliasName, p.entity⟩

/-- The entity that a path has led to before. -/
def findJoined? (joined : List JoinedEntity) (path : List String) : Option JoinedEntity :=
  joined.find? fun j => j.path == path

/-- The alias of the `number`-th join. -/
def aliasOf (table : String) (number : Nat) : String :=
  table ++ "_" ++ toString number

/-- Where a walk along a path has come to. -/
structure Position where
  /-- The part of the path walked so far. -/
  path : List String
  entity : Entity
  /-- The table or alias that stands for the entity. -/
  qualifier : String
  /-- The joins that the walk has planned. -/
  pending : List PendingJoin

namespace Scope

/-- The entry of a logical name. -/
def entry (scope : Scope) (name : String) : Except NameFault BindingEntry :=
  match scope.bindings.find? name with
  | some binding => .ok binding.entry
  | none => .error (.unknownField name)

/-- The entity that a segment leads to from an entity, and the relationship it follows. -/
def follow (scope : Scope) (entity : Entity) (segment : String) :
    Except NameFault (Relationship × Entity) :=
  match entity.relationship? segment with
  | none => .error (.notARelationship segment entity.name)
  | some relationship =>
    match scope.schema.find? relationship.target with
    | none => .error (.notARelationship segment entity.name)
    | some target => .ok (relationship, target)

/-- One step of a walk: to the entity listed for the longer path, or by a new join. -/
def step (scope : Scope) (joined : List JoinedEntity) (here : Position) (segment : String) :
    Except NameFault Position :=
  let path := here.path ++ [segment]
  match findJoined? joined path with
  | some found =>
    match scope.schema.find? found.entity with
    | some entity => .ok { here with path, entity, qualifier := found.aliasName }
    | none => .error (.unknownEntity found.entity)
  | none =>
    match scope.follow here.entity segment with
    | .error fault => .error fault
    | .ok (relationship, target) =>
      let aliasName := aliasOf target.table (joined.length + here.pending.length + 1)
      let join : Join :=
        ⟨here.qualifier, relationship.localColumn, target.table, aliasName,
          relationship.remoteColumn⟩
      .ok ⟨path, target, aliasName, here.pending ++ [⟨path, target.name, join⟩]⟩

/-- A walk along the rest of a path. -/
def walk (scope : Scope) (joined : List JoinedEntity) (here : Position) :
    List String → Except NameFault Position
  | [] => .ok here
  | segment :: rest =>
    match scope.step joined here segment with
    | .error fault => .error fault
    | .ok next => scope.walk joined next rest

/-- The start of every walk. -/
def root (scope : Scope) : Position :=
  ⟨[], scope.model, scope.model.table, []⟩

/-- Finds the column of a logical name and the joins that are missing for it. -/
def resolve (scope : Scope) (joined : List JoinedEntity) (name : String) :
    Except NameFault Resolution :=
  match scope.entry name with
  | .error fault => .error fault
  | .ok entry =>
    match scope.walk joined scope.root entry.path with
    | .error fault => .error fault
    | .ok last =>
      match last.entity.column? entry.column with
      | none => .error (.unknownColumn entry.column last.entity.name)
      | some column =>
        .ok ⟨⟨⟨last.qualifier, column.name⟩, column.type⟩, entry.path, last.pending⟩

end Scope

namespace Draft

/-- The draft of a base statement, into which nothing is joined yet. -/
def start (base : Select) : Draft :=
  ⟨base, []⟩

/-- Adds the joins that a resolution lacks and lists them. -/
def commit (draft : Draft) (resolution : Resolution) : Draft :=
  { select :=
      { draft.select with
        joins := draft.select.joins ++ resolution.pending.map PendingJoin.join }
    joined := draft.joined ++ resolution.pending.map PendingJoin.joined }

/-- Resolves a name and adds the joins it lacks. -/
def apply (scope : Scope) (draft : Draft) (name : String) : Except NameFault (Field × Draft) :=
  match scope.resolve draft.joined name with
  | .error fault => .error fault
  | .ok resolution => .ok (resolution.field, draft.commit resolution)

end Draft

end FilterSelect
