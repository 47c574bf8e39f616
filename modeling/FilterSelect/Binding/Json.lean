/-
Bindings in JSON.

An entry is the name of a column, or an object with the column as `param` and the
path as `join`.  A path is a list of relationships, a single one, or nothing.
Entries are checked throughout: a part that denotes nothing is an error also
where it would be passed over.
-/
import FilterSelect.Binding.Basic
import FilterSelect.Json.Decode

namespace FilterSelect

open Json

namespace BindingEntry

/-- The written form of an entry. -/
def toJson : BindingEntry → Json
  | .simple column => .string column
  | .joined column path =>
    .object [("join", .array (path.map Json.string)), ("param", .string column)]

/-- Reads a path. -/
def readPath : Document → Option (List String)
  | .null => some []
  | .string segment => some [segment]
  | d => d.list? Document.string?

/-- Reads an entry. -/
def ofDocument? (d : Document) : Option BindingEntry :=
  if d.isMeaningful then
    match d with
    | .string column => some (.simple column)
    | .object members => do
      let fields ← Members.ofObject? ["param", "join"] members
      let column ← fields.required "param" Document.string?
      let path ← fields.withDefault "join" [] readPath
      some (.joined column path)
    | _ => none
  else none

end BindingEntry

namespace Bindings

/-- The written form of bindings. -/
def toJson (b : Bindings) : Json :=
  .object (b.items.map fun binding => (binding.name, binding.entry.toJson))

/-- Reads bindings; of several for one name the last is kept. -/
def ofDocument? (d : Document) : Option Bindings :=
  (d.entries? BindingEntry.ofDocument?).map fun entries =>
    Directory.ofList (entries.map fun (name, entry) => ⟨name, entry⟩)

end Bindings

end FilterSelect
