/-
Evaluating a query.

An evaluation first looks over the whole tree for operators it does not know, and
only then builds anything.  It goes through the filters from left to right: the
operator of each is looked up, its name resolved, its condition built, and then
the joins it lacks are added.  The orders follow in their own order.
-/
import FilterSelect.Query.Basic
import FilterSelect.Registry
import FilterSelect.Resolution

namespace FilterSelect

/-- What stays the same throughout an evaluation. -/
structure Evaluation where
  scope : Scope
  registry : Registry
  converters : Converters
  /-- The reading of the clock that the words for moments refer to. -/
  clock : DateTime

namespace Evaluation

/-- The reference that the optional operator of a filter stands for. -/
def refOf : Option String → OperatorRef
  | some name => .name name
  | none => .default

/-- The operator of a filter. -/
def operatorOf (e : Evaluation) (l : Leaf) : Except Fault Operator :=
  e.registry.get (refOf l.filter)

/-- Looks over a tree, from the left and outside in, for what cannot be evaluated. -/
def check (e : Evaluation) : FilterTree → Except Fault Unit
  | .leaf l => (e.operatorOf l).map fun _ => ()
  | .not inner => e.check inner
  | .and left right | .or left right =>
    match e.check left with
    | .error fault => .error fault
    | .ok () => e.check right
  | .binding operator _ _ => .error (.unresolvedNode operator)

/-- The condition of one filter, and the draft with the joins it needs. -/
def evaluateLeaf (e : Evaluation) (draft : Draft) (l : Leaf) : Except Fault (Condition × Draft) :=
  match e.operatorOf l with
  | .error fault => .error fault
  | .ok op =>
    match e.scope.resolve draft.joined l.name with
    | .error fault => .error (.resolution fault)
    | .ok resolution =>
      match op.apply (some e.converters) e.clock resolution.field l.value with
      | .error fault => .error fault
      | .ok condition => .ok (condition, draft.commit resolution)

/-- The condition of a tree, and the draft with the joins it needs. -/
def evaluateTree (e : Evaluation) (draft : Draft) : FilterTree → Except Fault (Condition × Draft)
  | .leaf l => e.evaluateLeaf draft l
  | .not inner =>
    match e.evaluateTree draft inner with
    | .error fault => .error fault
    | .ok (condition, draft) => .ok (.not condition, draft)
  | .and left right =>
    match e.evaluateTree draft left with
    | .error fault => .error fault
    | .ok (first, draft) =>
      match e.evaluateTree draft right with
      | .error fault => .error fault
      | .ok (second, draft) => .ok (.and first second, draft)
  | .or left right =>
    match e.evaluateTree draft left with
    | .error fault => .error fault
    | .ok (first, draft) =>
      match e.evaluateTree draft right with
      | .error fault => .error fault
      | .ok (second, draft) => .ok (.or first second, draft)
  | .binding operator _ _ => .error (.unresolvedNode operator)

/-- The draft restricted by the condition of a tree, if there is one. -/
def applyFilter (e : Evaluation) (draft : Draft) : Option FilterTree → Except Fault Draft
  | none => .ok draft
  | some tree =>
    match e.evaluateTree draft tree with
    | .error fault => .error fault
    | .ok (condition, draft) => .ok { draft with select := draft.select.restrict condition }

/-- The draft with one more column to order by. -/
def applyOrder (e : Evaluation) (draft : Draft) (order : OrderSpec) : Except Fault Draft :=
  match draft.apply e.scope order.name with
  | .error fault => .error (.resolution fault)
  | .ok (field, draft) =>
    let orders := draft.select.orders ++ [⟨field.toColumnRef, order.direction⟩]
    .ok { draft with select := { draft.select with orders } }

/-- The draft with all columns to order by. -/
def applyOrders (e : Evaluation) (draft : Draft) : List OrderSpec → Except Fault Draft
  | [] => .ok draft
  | order :: rest =>
    match e.applyOrder draft order with
    | .error fault => .error fault
    | .ok draft => e.applyOrders draft rest

/-- Looks over the filters of a query, if it has any. -/
def checkQuery (e : Evaluation) (query : Query) : Except Fault Unit :=
  match query.filter with
  | none => .ok ()
  | some tree => e.check tree

/-- The statement that a query makes of a base statement. -/
def evaluate (e : Evaluation) (base : Select) (query : Query) : Except Fault Select := do
  e.checkQuery query
  let filtered ← e.applyFilter (Draft.start base) query.filter
  let ordered ← e.applyOrders filtered query.orders
  return ordered.select

end Evaluation

end FilterSelect
