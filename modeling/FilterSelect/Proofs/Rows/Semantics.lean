/-
What a select returns.

A database gives the rows of each table, an equality on what its columns hold, and
for each test what it yields on that.  Equality and tests have three truth values,
since a column may hold NULL.  Nothing else is assumed of a database: rows may occur
more than once, and equality and tests are arbitrary.

A select goes through its clauses as SQL does.  FROM takes each row of the root
table under the table's own name.  Each INNER JOIN pairs every row combination so
far with every row of its table, under the alias, for which its condition holds.
WHERE keeps the combinations for which the condition holds, and what it is
unknown for is dropped with what it fails for.  The result has one row for each
combination that is left, so it is a multiset; its order is not looked at.
-/
import FilterSelect.Proofs.Operators.Test
import Mathlib.Data.Multiset.Bind

namespace FilterSelect

/-! ### Three truth values -/

/-- What a condition comes to for a row. -/
inductive Truth where
  | holds
  | fails
  | unknown
deriving DecidableEq

namespace Truth

protected def not : Truth → Truth
  | .holds => .fails
  | .fails => .holds
  | .unknown => .unknown

protected def and : Truth → Truth → Truth
  | .holds, .holds => .holds
  | .fails, _ | _, .fails => .fails
  | _, _ => .unknown

protected def or : Truth → Truth → Truth
  | .fails, .fails => .fails
  | .holds, _ | _, .holds => .holds
  | _, _ => .unknown

end Truth

/-! ### Databases -/

/-- What each column of a row holds. -/
abbrev Row (Cell : Type) := String → Cell

/-- The rows of each table, and what comparing what their columns hold comes to. -/
structure Database (Cell : Type) where
  rows : String → Multiset (Row Cell)
  /-- The equality that rows are joined by. -/
  equal : Cell → Cell → Truth
  passes : Test → Cell → Truth

/-- A row combination: one row for each name of the FROM clause. -/
abbrev Environment (Cell : Type) := List (String × Row Cell)

variable {Cell : Type}

/-- What a column holds in the row of its qualifier. -/
def Environment.cell? (env : Environment Cell) (column : ColumnRef) : Option Cell :=
  (env.lookup column.qualifier).map fun row => row column.column

/-! ### Conditions -/

/-- What a test of a column comes to. -/
def Database.ask (db : Database Cell) (env : Environment Cell) (column : ColumnRef)
    (test : Test) : Truth :=
  match env.cell? column with
  | some cell => db.passes test cell
  | none => .unknown

/-- What a condition comes to. -/
def Condition.truth (db : Database Cell) (env : Environment Cell) : Condition → Truth
  | .compare comparator column value => db.ask env column (.compare comparator value)
  | .isNull column => db.ask env column .isNull
  | .isNotNull column => db.ask env column .isNotNull
  | .like column pattern => db.ask env column (.like pattern)
  | .likeFolded column pattern => db.ask env column (.likeFolded pattern)
  | .not inner => (inner.truth db env).not
  | .and left right => (left.truth db env).and (right.truth db env)
  | .or left right => (left.truth db env).or (right.truth db env)

theorem Condition.truth_on (db : Database Cell) (env : Environment Cell) (column : ColumnRef)
    (test : Test) : (test.on column).truth db env = db.ask env column test := by
  cases test <;> rfl

/-! ### Clauses -/

/-- What the condition of a join comes to. -/
def Join.truth (db : Database Cell) (j : Join) (env : Environment Cell) : Truth :=
  match env.cell? ⟨j.base, j.localColumn⟩, env.cell? ⟨j.aliasName, j.remoteColumn⟩ with
  | some near, some far => db.equal near far
  | _, _ => .unknown

/-- The combinations that a join makes of one. -/
def Join.extend (db : Database Cell) (j : Join) (env : Environment Cell) :
    Multiset (Environment Cell) :=
  ((db.rows j.table).map fun row => env ++ [(j.aliasName, row)]).filter
    fun env => j.truth db env = .holds

/-- The row combinations of a root table and some joins. -/
def joined (db : Database Cell) (table : String) (joins : List Join) :
    Multiset (Environment Cell) :=
  joins.foldl (fun envs j => envs.bind (j.extend db))
    ((db.rows table).map fun row => [(table, row)])

/-- What an optional condition comes to: where there is none, everything is kept. -/
def filterTruth (db : Database Cell) (env : Environment Cell) : Option Condition → Truth
  | none => .holds
  | some condition => condition.truth db env

/-- The rows that a result row consists of. -/
def Output.rowsOf (output : Output) (table : String) (env : Environment Cell) : List (Row Cell) :=
  match output with
  | .everything => env.map Prod.snd
  | .root => (env.lookup table).toList

/-- What a select returns. -/
def Select.result (db : Database Cell) (s : Select) : Multiset (List (Row Cell)) :=
  ((joined db s.table s.joins).filter fun env => filterTruth db env s.condition = .holds).map
    (s.output.rowsOf s.table)

/-! ### Names and joins -/

theorem joined_append (db : Database Cell) (table : String) (joins : List Join) (j : Join) :
    joined db table (joins ++ [j]) = (joined db table joins).bind (j.extend db) :=
  List.foldl_concat ..

/-! ### Restricted statements

The condition that a query adds is one more that a row has to fulfil, whatever the statement
was restricted to before.
-/

theorem Truth.and_eq_holds_iff {a b : Truth} : a.and b = .holds ↔ a = .holds ∧ b = .holds := by
  cases a <;> cases b <;> decide

theorem filterTruth_restrict (db : Database Cell) (env : Environment Cell) (s : Select)
    (condition : Condition) :
    filterTruth db env (s.restrict condition).condition =
      (filterTruth db env s.condition).and (condition.truth db env) := by
  cases h : s.condition with
  | none =>
      rw [Select.restrict, h]
      change condition.truth db env = Truth.and .holds (condition.truth db env)
      cases condition.truth db env <;> rfl
  | some kept =>
      rw [Select.restrict, h]
      rfl

/-- A restricted statement returns the rows of the statement for which the condition holds. -/
theorem Select.result_restrict (db : Database Cell) (s : Select) (condition : Condition) :
    (s.restrict condition).result db =
      ((joined db s.table s.joins).filter fun env =>
          filterTruth db env s.condition = .holds ∧ condition.truth db env = .holds).map
        (s.output.rowsOf s.table) := by
  simp only [result, filterTruth_restrict, Truth.and_eq_holds_iff]
  rfl

end FilterSelect
