/-
Configurations of filter endpoints.

A configuration says which entity an endpoint queries, what its logical names
stand for, which converters and operators it uses and where its base statements
come from.  Everything but the bindings may be left open.

Configurations are layered: what the upper one of two layers sets, wins, and the
bindings of both are kept, with the upper one's where both bind a name.
-/
import FilterSelect.Binding.Basic
import FilterSelect.Registry
import FilterSelect.Schema.Basic
import FilterSelect.Sql.Token

namespace FilterSelect

/-- A source of base statements, which are written in its dialect. -/
structure Session where
  dialect : Sql.Dialect
deriving DecidableEq, Repr

/-- The base statement of an entity: every column of every row. -/
def Session.base (_ : Session) (model : Entity) : Select :=
  Select.allOf model.table

/-- What an endpoint is made of; the bindings may be empty, the other parts absent. -/
structure Configuration where
  /-- The name of the root entity. -/
  model : Option String
  bindings : Bindings
  converters : Option Converters
  filters : Option Registry
  defaultFilter : Option String
  session : Option Session

namespace Configuration

/-- The configuration that leaves everything open. -/
def empty : Configuration :=
  ⟨none, Directory.empty, none, none, none, none⟩

/-- Lays a configuration over another one. -/
def overlay (lower upper : Configuration) : Configuration where
  model := upper.model <|> lower.model
  bindings := lower.bindings.merge upper.bindings
  converters := upper.converters <|> lower.converters
  filters := upper.filters <|> lower.filters
  defaultFilter := upper.defaultFilter <|> lower.defaultFilter
  session := upper.session <|> lower.session

/-- Lays configurations over each other, the first one at the bottom. -/
def ofLayers (layers : List Configuration) : Configuration :=
  layers.foldl overlay empty

/-- Binds a logical name. -/
def bind (c : Configuration) (name : String) (entry : BindingEntry) : Configuration :=
  { c with bindings := c.bindings.insert ⟨name, entry⟩ }

/-- The operators of an endpoint, with its default. -/
def registry (c : Configuration) : Except Fault Registry :=
  let registry := c.filters.getD Registry.builtIn
  match c.defaultFilter with
  | some name => registry.withDefault name
  | none => .ok registry

end Configuration

end FilterSelect
