/-
The operators that queries may use.

A registry lists operators and names one of them as the default, for filters that
name none.  Operators are known by their names alone: registering one under a name
that is taken puts it in the place of the other.

Every change keeps the default among the registered operators; a choice of
operators that would leave it out is refused.
-/
import FilterSelect.Operator

namespace FilterSelect

/-- Operators by name, with a default. -/
structure Registry where
  operators : List Operator
  defaultName : String
deriving DecidableEq, Repr

/-- How an operator is referred to. -/
inductive OperatorRef where
  | name (name : String)
  | operator (op : Operator)
  /-- The default of the registry. -/
  | default
deriving DecidableEq, Repr

namespace Registry

/-- The name of the default operator where nothing else is chosen. -/
def usualDefault : String :=
  Comparison.eq.name

/-- A registry without operators; looking up its default fails until that is registered. -/
def empty : Registry :=
  ⟨[], usualDefault⟩

/-- Puts an operator in the place of the first one of its name, or else at the end. -/
def place (op : Operator) : List Operator → List Operator
  | [] => [op]
  | other :: rest =>
    if other.name = op.name then op :: rest else other :: place op rest

/-- Adds an operator, in place of one of the same name. -/
def register (r : Registry) (op : Operator) : Registry :=
  { r with operators := place op r.operators }

/-- Adds operators one after another. -/
def registerAll (r : Registry) (ops : List Operator) : Registry :=
  ops.foldl register r

/-- All built-in comparisons. -/
def builtIn : Registry :=
  empty.registerAll (Comparison.all.map Operator.builtIn)

/-- The names of all operators in order. -/
def names (r : Registry) : List String :=
  r.operators.map Operator.name

/-- The operator of a name. -/
def find? (r : Registry) (name : String) : Option Operator :=
  r.operators.find? fun op => op.name == name

/-- Whether an operator of this name is registered. -/
def contains (r : Registry) (name : String) : Bool :=
  r.operators.any fun op => op.name == name

/-- The name that a reference stands for. -/
def nameOf (r : Registry) : OperatorRef → String
  | .name name => name
  | .operator op => op.name
  | .default => r.defaultName

/-- The operator that a reference stands for. -/
def get (r : Registry) (ref : OperatorRef) : Except Fault Operator :=
  match r.find? (r.nameOf ref) with
  | some op => .ok op
  | none => .error (.unknownFilter (r.nameOf ref))

/-- Whether a reference stands for this operator, which is to say for its name. -/
def refersTo (r : Registry) (ref : OperatorRef) (op : Operator) : Bool :=
  op.name == r.nameOf ref

/-- Chooses another default among the registered operators. -/
def withDefault (r : Registry) (name : String) : Except Fault Registry :=
  if r.contains name then .ok { r with defaultName := name } else .error (.unknownFilter name)

/-- The operators of some names, in the order of the names. -/
def getAll (r : Registry) : List String → Except Fault (List Operator)
  | [] => .ok []
  | name :: rest =>
    match r.get (.name name) with
    | .error fault => .error fault
    | .ok op => (r.getAll rest).map (op :: ·)

/-- Keeps only the operators of some names, which must include the default. -/
def subset (r : Registry) (names : List String) : Except Fault Registry :=
  match r.getAll names with
  | .error fault => .error fault
  | .ok operators =>
    let kept : Registry := ⟨operators, r.defaultName⟩
    if kept.contains kept.defaultName then .ok kept else .error (.defaultLeftOut r.defaultName)

/-! ### Looking up -/

theorem contains_eq_isSome_find? (r : Registry) (name : String) :
    r.contains name = (r.find? name).isSome := by
  rw [contains, find?, Bool.eq_iff_iff, List.any_eq_true, List.find?_isSome]

theorem find?_place (op : Operator) (ops : List Operator) (name : String) :
    (place op ops).find? (fun o => o.name == name) =
      if op.name = name then some op else ops.find? fun o => o.name == name := by
  induction ops with
  | nil => by_cases h : op.name = name <;> simp [place, h]
  | cons other rest ih =>
    by_cases hplace : other.name = op.name
    · by_cases h : op.name = name <;> simp [place, hplace, h]
    · by_cases h : op.name = name
      · have : other.name ≠ name := h ▸ hplace
        simp [place, this, ih, h]
      · simp only [place, if_neg hplace, List.find?_cons, ih, if_neg h]

/-- A registered operator is found under its name, and no other lookup changes. -/
theorem find?_register (r : Registry) (op : Operator) (name : String) :
    (r.register op).find? name = if op.name = name then some op else r.find? name :=
  find?_place op r.operators name

end Registry

end FilterSelect
