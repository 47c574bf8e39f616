/-
What operators ask of a column.

An operator makes a condition of a column and a raw scalar.  Which column it is
matters only to where the condition is read: what is asked of the column's value
depends on the operator, on the type of the column and on the scalar.  `Test` is
that part of a condition.  A condition made by an operator is its test put to the
column, so a meaning or a text is given to conditions by giving one to tests.
-/
import FilterSelect.Operator

namespace FilterSelect

/-- What is asked of the value in a column. -/
inductive Test where
  | compare (comparator : Comparator) (value : Value)
  | isNull
  | isNotNull
  | like (pattern : String)
  /-- A match that is blind to case. -/
  | likeFolded (pattern : String)
deriving DecidableEq

/-- The condition that puts a test to a column. -/
def Test.on (column : ColumnRef) : Test → Condition
  | .compare comparator value => .compare comparator column value
  | .isNull => .isNull column
  | .isNotNull => .isNotNull column
  | .like pattern => .like column pattern
  | .likeFolded pattern => .likeFolded column pattern

/-- What a comparison asks for a value, which is absent for a null scalar. -/
def Comparison.test? : Comparison → Option Value → Option Test
  | .eq, none => some .isNull
  | .eq, some v => some (.compare .equal v)
  | .neq, none => some .isNotNull
  | .neq, some v => some (.compare .notEqual v)
  | .lt, value => some (.compare .less (value.getD .null))
  | .lte, value => some (.compare .lessOrEqual (value.getD .null))
  | .gt, value => some (.compare .greater (value.getD .null))
  | .gte, value => some (.compare .greaterOrEqual (value.getD .null))
  | .like, some (.string pattern) => some (.like pattern)
  | .ilike, some (.string pattern) => some (.likeFolded pattern)
  | .like, _ => none
  | .ilike, _ => none

/-- What an operator asks of columns of a type for a raw scalar. -/
def Operator.test? (op : Operator) (given : Option Converters) (clock : DateTime)
    (type : ColumnType) (raw : Json) : Option Test :=
  if op.accepts type then
    (valueFor given clock type raw).toOption.bind op.comparison.test?
  else none

theorem Comparison.toOption_patternOf (field : Field) (value : Option Value)
    (condition : String → Condition) :
    ((patternOf field value).map condition).toOption =
      match value with
      | some (.string pattern) => some (condition pattern)
      | _ => none := by
  unfold patternOf
  split <;> simp_all [Except.map, Except.toOption]

theorem Comparison.toOption_build (c : Comparison) (field : Field) (value : Option Value) :
    (c.build field value).toOption = (c.test? value).map (·.on field.toColumnRef) := by
  cases c with
  | like =>
      rw [build, toOption_patternOf, test?.eq_def]
      cases value with
      | none => rfl
      | some v => cases v <;> rfl
  | ilike =>
      rw [build, toOption_patternOf, test?.eq_def]
      cases value with
      | none => rfl
      | some v => cases v <;> rfl
  | _ => cases value <;> rfl

theorem Operator.toOption_apply (op : Operator) (given : Option Converters) (clock : DateTime)
    (field : Field) (raw : Json) :
    (op.apply given clock field raw).toOption =
      (op.test? given clock field.type raw).map (·.on field.toColumnRef) := by
  unfold apply test?
  split
  · cases valueFor given clock field.type raw with
    | error fault => rfl
    | ok value => exact op.comparison.toOption_build field value
  · rfl

end FilterSelect
