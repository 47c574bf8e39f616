/-
Filter operators.

An operator turns a column and a raw scalar into a condition, in three steps: it
checks that it can be applied to the column, converts the scalar for the column's
type, and builds the condition.  The check comes first, so a filter on a column
of the wrong type is refused for that whatever its value is.  A null scalar is not
converted; equality reads it as a test for NULL.

The built-in operators are comparisons.  A host adds its own under other names,
each building what some comparison builds, with or without its check.
-/
import FilterSelect.Fault
import FilterSelect.Select.Basic
import FilterSelect.Value.Converters

namespace FilterSelect

/-- The built-in operators. -/
inductive Comparison where
  | eq
  | neq
  | lt
  | lte
  | gt
  | gte
  | like
  | ilike
deriving DecidableEq, Repr

namespace Comparison

/-- All comparisons in their usual order. -/
def all : List Comparison :=
  [eq, neq, lt, lte, gt, gte, like, ilike]

/-- The name of a comparison in queries. -/
def name : Comparison → String
  | .eq => "eq"
  | .neq => "neq"
  | .lt => "lt"
  | .lte => "lte"
  | .gt => "gt"
  | .gte => "gte"
  | .like => "like"
  | .ilike => "ilike"

/-- The comparison of a name. -/
def ofName? (name : String) : Option Comparison :=
  all.find? fun c => c.name == name

/-- Whether a comparison matches patterns. -/
def isPattern (c : Comparison) : Bool :=
  c == .like || c == .ilike

/-- Whether a comparison can be applied to columns of a type. -/
def accepts (c : Comparison) (type : ColumnType) : Bool :=
  !c.isPattern || type.isStringLike

/-- The pattern that a value is, if it is a string. -/
def patternOf (field : Field) (value : Option Value) : Except Fault String :=
  match value with
  | some (.string pattern) => .ok pattern
  | found => .error (.pattern found field.type)

/-- The condition that a column compares with a value, which is absent for a null scalar. -/
def build (c : Comparison) (field : Field) (value : Option Value) : Except Fault Condition :=
  let column := field.toColumnRef
  let ordered (comparator : Comparator) : Except Fault Condition :=
    .ok (.compare comparator column (value.getD .null))
  match c with
  | .eq =>
    match value with
    | none => .ok (.isNull column)
    | some v => .ok (.compare .equal column v)
  | .neq =>
    match value with
    | none => .ok (.isNotNull column)
    | some v => .ok (.compare .notEqual column v)
  | .lt => ordered .less
  | .lte => ordered .lessOrEqual
  | .gt => ordered .greater
  | .gte => ordered .greaterOrEqual
  | .like => (patternOf field value).map (.like column)
  | .ilike => (patternOf field value).map (.likeFolded column)

end Comparison

/-- A filter operator. -/
inductive Operator where
  | builtIn (comparison : Comparison)
  /-- A host's operator, which builds what `base` does and, if guarded, checks the same. -/
  | host (name : String) (base : Comparison) (guarded : Bool)
deriving DecidableEq, Repr

namespace Operator

/-- The name of an operator in queries. -/
def name : Operator → String
  | .builtIn comparison => comparison.name
  | .host name _ _ => name

/-- The comparison whose conditions an operator builds. -/
def comparison : Operator → Comparison
  | .builtIn comparison => comparison
  | .host _ base _ => base

/-- Whether an operator can be applied to columns of a type. -/
def accepts : Operator → ColumnType → Bool
  | .builtIn comparison, type => comparison.accepts type
  | .host _ base guarded, type => !guarded || base.accepts type

/-- The value of a raw scalar for columns of a type; none for null. -/
def valueFor (given : Option Converters) (clock : DateTime) (type : ColumnType) (raw : Json) :
    Except Fault (Option Value) :=
  match raw with
  | .null => .ok none
  | _ =>
    match Converters.convert given clock type raw with
    | .ok v => .ok (some v)
    | .error refusal => .error (.conversion raw type refusal)

/-- The condition of an operator on a column and a raw scalar. -/
def apply (op : Operator) (given : Option Converters) (clock : DateTime) (field : Field)
    (raw : Json) : Except Fault Condition :=
  if op.accepts field.type then
    match valueFor given clock field.type raw with
    | .ok value => op.comparison.build field value
    | .error fault => .error fault
  else .error (.typeMismatch op.name field.type)

end Operator

end FilterSelect
