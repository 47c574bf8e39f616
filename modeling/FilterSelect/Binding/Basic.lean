/-
Bindings of logical names.

A request speaks of logical names.  A binding says which column such a name
stands for, and along which relationships, starting from the root entity, the
entity with that column is reached.
-/
import FilterSelect.Directory

namespace FilterSelect

/-- What a logical name stands for. -/
inductive BindingEntry where
  /-- A column of the root entity. -/
  | simple (column : String)
  /-- A column at the end of a path of relationships. -/
  | joined (column : String) (path : List String)
deriving DecidableEq, Repr

namespace BindingEntry

/-- The column that is meant. -/
def column : BindingEntry → String
  | .simple column | .joined column _ => column

/-- The relationships to follow from the root. -/
def path : BindingEntry → List String
  | .simple _ => []
  | .joined _ path => path

end BindingEntry

/-- A logical name with what it stands for. -/
structure Binding where
  name : String
  entry : BindingEntry
deriving DecidableEq, Repr

/-- The bindings of an endpoint, by logical name. -/
abbrev Bindings := Directory Binding.name

end FilterSelect
