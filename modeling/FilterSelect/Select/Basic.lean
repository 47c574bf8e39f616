/-
Select statements.

A select reads the rows of one table, joins others to it under aliases, keeps the
rows for which a condition holds and puts them in order.  Columns are named by a
table or alias and the column's own name.

Statements are data: they can be extended, compared and given a meaning without
regard to how a dialect writes them.
-/
import FilterSelect.Schema.ColumnType
import FilterSelect.Value.Basic

namespace FilterSelect

/-- A column of a table or alias. -/
structure ColumnRef where
  qualifier : String
  column : String
deriving DecidableEq, Repr

/-- A column with its declared type. -/
structure Field extends ColumnRef where
  type : ColumnType
deriving DecidableEq, Repr

/-- Qualifier and column with a point between them. -/
def ColumnRef.text (c : ColumnRef) : String :=
  c.qualifier ++ "." ++ c.column

/-! ### Conditions -/

/-- How a column is compared with a value. -/
inductive Comparator where
  | equal
  | notEqual
  | less
  | lessOrEqual
  | greater
  | greaterOrEqual
deriving DecidableEq, Repr

/-- What has to hold for a row to be kept. -/
inductive Condition where
  | compare (comparator : Comparator) (column : ColumnRef) (value : Value)
  | isNull (column : ColumnRef)
  | isNotNull (column : ColumnRef)
  | like (column : ColumnRef) (pattern : String)
  /-- A match that is blind to case: column and pattern are folded by the database. -/
  | likeFolded (column : ColumnRef) (pattern : String)
  | not (inner : Condition)
  | and (left right : Condition)
  | or (left right : Condition)
deriving DecidableEq

/-! ### Statements -/

/-- Which way rows are ordered by a column. -/
inductive Direction where
  | ascending
  | descending
deriving DecidableEq, Repr

/-- A column to order by. -/
structure Order where
  column : ColumnRef
  direction : Direction
deriving DecidableEq, Repr

/--
A table joined under an alias: its rows are those whose remote column equals the
local column of `base`, which is the root table or an alias before this one.
-/
structure Join where
  base : String
  localColumn : String
  table : String
  aliasName : String
  remoteColumn : String
deriving DecidableEq, Repr

/-- Whose columns a row of the result has. -/
inductive Output where
  | everything
  /-- All columns of the root table. -/
  | root
deriving DecidableEq, Repr

/-- A select statement over a root table. -/
structure Select where
  table : String
  output : Output
  joins : List Join
  condition : Option Condition
  orders : List Order
deriving DecidableEq

namespace Select

/-- All rows of a table with all its columns. -/
def allOf (table : String) : Select :=
  ⟨table, .root, [], none, []⟩

/-- The statement with one more condition that a row has to fulfil. -/
def restrict (s : Select) (condition : Condition) : Select :=
  { s with condition := some (s.condition.elim condition fun kept => .and kept condition) }

theorem restrict_of_none {s : Select} (h : s.condition = none) (condition : Condition) :
    s.restrict condition = { s with condition := some condition } := by
  rw [restrict, h]
  rfl

/-- The rows of a table for which a condition holds. -/
def filtered (table : String) (condition : Condition) : Select :=
  ⟨table, .everything, [], some condition, []⟩

end Select

end FilterSelect
