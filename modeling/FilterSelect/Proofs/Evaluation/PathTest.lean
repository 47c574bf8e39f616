/-
What a leaf asks, and of which column.

The condition of a leaf is put together from two parts that do not know of each
other.  The operator and the scalar say what is asked, which is a test.  The name
says of what: of a column of the entity at the end of a path.  Only where the path
is read from depends on the joins, so a leaf has a meaning before anything is
joined, and its condition is its test put to the column of what stands for its path.
-/
import FilterSelect.Proofs.Evaluation.Reference
import FilterSelect.Proofs.Operators.Test

namespace FilterSelect

/-- A test of a column of the entity at the end of a path. -/
structure PathTest where
  path : List String
  column : String
  test : Test
deriving DecidableEq

namespace Evaluation

variable {e : Evaluation} {used : List (List String)}

/-- What a leaf asks; nothing if its operator, its name or its scalar does not allow that. -/
def pathTest? (e : Evaluation) (l : Leaf) : Option PathTest := do
  let op ← (e.operatorOf l).toOption
  let (path, column) ← (e.scope.destination l.name).toOption
  let test ← op.test? (some e.converters) e.clock column.type l.value
  some ⟨path, column.name, test⟩

/-- The condition of a leaf puts its test to its column, read from what stands for its path. -/
theorem leafCondition?_eq (l : Leaf) :
    e.leafCondition? used l = (e.pathTest? l).bind fun asked =>
      (e.scope.qualifier? used asked.path).map fun qualifier =>
        asked.test.on ⟨qualifier, asked.column⟩ := by
  unfold leafCondition? pathTest? Scope.field?
  cases (e.operatorOf l).toOption with
  | none => rfl
  | some op =>
      cases (e.scope.destination l.name).toOption with
      | none => rfl
      | some target =>
          obtain ⟨path, column⟩ := target
          simp only [Option.bind_eq_bind, Option.bind_some, Operator.toOption_apply]
          cases hqualifier : e.scope.qualifier? used path <;>
            cases htest : op.test? (some e.converters) e.clock column.type l.value <;>
              simp [hqualifier, htest]

theorem parts_of_pathTest? {l : Leaf} {asked : PathTest} (h : e.pathTest? l = some asked) :
    ∃ (op : Operator) (column : Column), e.operatorOf l = .ok op ∧
      e.scope.destination l.name = .ok (asked.path, column) ∧ asked.column = column.name ∧
      op.test? (some e.converters) e.clock column.type l.value = some asked.test := by
  unfold pathTest? at h
  cases hop : e.operatorOf l with
  | error fault => simp [hop, Except.toOption] at h
  | ok op =>
      cases hname : e.scope.destination l.name with
      | error fault => simp [hop, hname, Except.toOption] at h
      | ok target =>
          obtain ⟨path, column⟩ := target
          simp only [hop, hname, Except.toOption, Option.bind_eq_bind, Option.bind_some,
            Option.bind_eq_some_iff] at h
          obtain ⟨test, htest, hasked⟩ := h
          cases hasked
          exact ⟨op, column, rfl, rfl, rfl, htest⟩

theorem destination_of_pathTest? {l : Leaf} {asked : PathTest} (h : e.pathTest? l = some asked) :
    ∃ column : Column, e.scope.destination l.name = .ok (asked.path, column) := by
  obtain ⟨op, column, -, hname, -⟩ := parts_of_pathTest? h
  exact ⟨column, hname⟩

end Evaluation

end FilterSelect
