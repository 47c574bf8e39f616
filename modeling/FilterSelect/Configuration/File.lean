/-
Binding files.

A binding file holds a configuration: the root entity under `for`, the bindings,
the names of the operators that may be used, the default among them, and the
dialect of a session.

A default that is named beside a choice of operators is applied before the choice,
so that a choice without the usual default can be made.
-/
import FilterSelect.Binding.Json
import FilterSelect.Configuration.Basic

namespace FilterSelect

open Json

/-- The content of a binding file. -/
structure BindingFile where
  model : Option String
  bindings : Bindings
  /-- The names of the operators that may be used; all built-in ones if absent. -/
  filters : Option (List String)
  defaultFilter : Option String
  dialect : Option Sql.Dialect

namespace BindingFile

/-- The operators that a file chooses. -/
def registry (file : BindingFile) (names : List String) : Except Fault Registry := do
  let all ←
    match file.defaultFilter with
    | some name => Registry.builtIn.withDefault name
    | none => .ok Registry.builtIn
  all.subset names

/-- The configuration of a file. -/
def toConfiguration (file : BindingFile) : Except Fault Configuration := do
  let filters ←
    match file.filters with
    | some names => (file.registry names).map some
    | none => .ok none
  let session := file.dialect.map Session.mk
  return ⟨file.model, file.bindings, none, filters, file.defaultFilter, session⟩

/-- A string or `null`. -/
def optionalString (s : Option String) : Json :=
  (s.map Json.string).getD .null

/-- The written form of a binding file. -/
def toJson (file : BindingFile) : Json :=
  .object [("backend", optionalString (file.dialect.map Sql.Dialect.name)),
    ("binding", Bindings.toJson file.bindings),
    ("default_filter", optionalString file.defaultFilter),
    ("filters", (file.filters.map fun names => .array (names.map Json.string)).getD .null),
    ("for", optionalString file.model)]

/-- Reads a dialect. -/
def readDialect (d : Document) : Option Sql.Dialect :=
  d.name?.bind Sql.Dialect.ofName?

/-- Reads a binding file. -/
def ofDocument? (d : Document) : Option BindingFile := do
  let fields ← d.fields? ["for", "binding", "filters", "default_filter", "backend"]
  let model ← fields.withDefault "for" none (Document.nullable? Document.string?)
  let bindings ← fields.withDefault "binding" Directory.empty Bindings.ofDocument?
  let filters ←
    fields.withDefault "filters" none (Document.nullable? (Document.list? Document.string?))
  let defaultFilter ←
    fields.withDefault "default_filter" none (Document.nullable? Document.string?)
  let dialect ← fields.withDefault "backend" none (Document.nullable? readDialect)
  some ⟨model, bindings, filters, defaultFilter, dialect⟩

end BindingFile

end FilterSelect
