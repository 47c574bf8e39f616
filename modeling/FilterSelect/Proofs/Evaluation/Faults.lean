/-
Which fault an evaluation reports.

A query can be wrong in many places at once, and one fault is reported.  `firstFault?`
says which, without evaluating the query as a whole.  First the tree is looked over, from
the left and outside in, for nodes that no evaluation could read.  Then each filter is
asked what it fails with where it is the only one, from left to right, and then each name
to order by.

That this is what evaluations report rests on one thing: a filter fares the same in every
draft that follows a plan (`evaluateLeaf_fault`).  What the filters before it have joined
changes the qualifier of its column, but neither whether its name resolves nor the type of
the column, and operators fail over nothing else.
-/
import FilterSelect.Proofs.Evaluation.Reference

namespace FilterSelect

/-- What a run fails with, if it fails. -/
def faultOf? {ε α : Type} : Except ε α → Option ε
  | .ok _ => none
  | .error fault => some fault

@[simp] theorem faultOf?_ok {ε α : Type} (a : α) : faultOf? (.ok a : Except ε α) = none := rfl

@[simp] theorem faultOf?_error {ε α : Type} (fault : ε) :
    faultOf? (.error fault : Except ε α) = some fault := rfl

theorem faultOf?_eq_none {ε α : Type} {run : Except ε α} :
    faultOf? run = none ↔ ∃ a, run = .ok a := by
  cases run <;> simp

theorem faultOf?_eq_some {ε α : Type} {run : Except ε α} {fault : ε} :
    faultOf? run = some fault ↔ run = .error fault := by
  cases run <;> simp

/-- Whether a fault is of a node and not of what it is applied to. -/
def Fault.isUpFront : Fault → Bool
  | .unresolvedNode _ | .unknownFilter _ => true
  | _ => false

/-! ### The order of faults -/

/-- The nodes of a tree, outside in and from left to right. -/
def FilterTree.nodes : FilterTree → List FilterTree
  | .leaf l => [.leaf l]
  | .and left right => .and left right :: (left.nodes ++ right.nodes)
  | .or left right => .or left right :: (left.nodes ++ right.nodes)
  | .not inner => .not inner :: inner.nodes
  | .binding operator left right => .binding operator left right :: (left.nodes ++ right.nodes)

namespace Query

/-- The nodes of the filter of a query. -/
def nodes (q : Query) : List FilterTree :=
  match q.filter with
  | none => []
  | some tree => tree.nodes

/-- The filters of a query from left to right. -/
def leaves (q : Query) : List Leaf :=
  match q.filter with
  | none => []
  | some tree => tree.leaves

/-- The query with one filter and no order. -/
def only (l : Leaf) : Query :=
  ⟨some (.leaf l), []⟩

end Query

namespace Evaluation

/-- What is wrong with a node whatever the schema: its operator has no meaning or is unknown. -/
def nodeFault? (e : Evaluation) : FilterTree → Option Fault
  | .leaf l =>
    let name := e.registry.nameOf (refOf l.filter)
    if e.registry.contains name then none else some (.unknownFilter name)
  | .binding operator _ _ => some (.unresolvedNode operator)
  | .and _ _ | .or _ _ | .not _ => none

/-- What a filter fails with where it is the only one. -/
def leafFault? (e : Evaluation) (l : Leaf) : Option Fault :=
  faultOf? (e.evaluate (.allOf e.scope.model.table) (.only l))

/-- What an order fails with where nothing has been joined. -/
def orderFault? (e : Evaluation) (order : OrderSpec) : Option Fault :=
  (faultOf? (e.scope.resolve [] order.name)).map .resolution

/-- The first fault of a query: of its nodes, else of its filters, else of its orders. -/
def firstFault? (e : Evaluation) (query : Query) : Option Fault :=
  (query.nodes.findSome? e.nodeFault?).or <|
    (query.leaves.findSome? e.leafFault?).or <|
      query.orders.findSome? e.orderFault?

end Evaluation

/-- The first fault of a query at an endpoint: what the endpoint lacks goes before the query's. -/
def Endpoint.firstFault? (e : Endpoint) (clock : DateTime) (query : Query) : Option Fault :=
  match e.model, e.session, e.config.registry with
  | .error fault, _, _ => some fault
  | .ok _, .error fault, _ => some fault
  | .ok _, .ok _, .error fault => some fault
  | .ok model, .ok _, .ok registry =>
    let converters := e.config.converters.getD Converters.builtIn
    Evaluation.firstFault? ⟨⟨e.schema, model, e.config.bindings⟩, registry, converters, clock⟩ query

/-! ### Operators

What an operator fails with is about the type of the column and the scalar.  Where the column
stands in the statement makes no difference.
-/

/-- What a comparison fails with on columns of a type. -/
def Comparison.fault? (c : Comparison) (type : ColumnType) (value : Option Value) : Option Fault :=
  if c.isPattern then
    match value with
    | some (.string _) => none
    | found => some (.pattern found type)
  else none

/-- What an operator fails with on columns of a type. -/
def Operator.fault? (op : Operator) (given : Option Converters) (clock : DateTime)
    (type : ColumnType) (raw : Json) : Option Fault :=
  if op.accepts type then
    match valueFor given clock type raw with
    | .error fault => some fault
    | .ok value => op.comparison.fault? type value
  else some (.typeMismatch op.name type)

private theorem Comparison.faultOf?_patternOf (field : Field) (value : Option Value)
    (condition : String → Condition) :
    faultOf? ((patternOf field value).map condition) =
      match value with
      | some (.string _) => none
      | found => some (.pattern found field.type) := by
  unfold patternOf
  split <;> simp_all [Except.map]

private theorem Comparison.faultOf?_build (c : Comparison) (field : Field) (value : Option Value) :
    faultOf? (c.build field value) = c.fault? field.type value := by
  cases c with
  | like => exact faultOf?_patternOf field value _
  | ilike => exact faultOf?_patternOf field value _
  | _ => cases value <;> rfl

theorem Operator.faultOf?_apply (op : Operator) (given : Option Converters) (clock : DateTime)
    (field : Field) (raw : Json) :
    faultOf? (op.apply given clock field raw) = op.fault? given clock field.type raw := by
  unfold apply fault?
  split
  · cases valueFor given clock field.type raw with
    | error fault => rfl
    | ok value => exact op.comparison.faultOf?_build field value
  · rfl

private theorem Operator.isUpFront_apply {op : Operator} {given : Option Converters}
    {clock : DateTime}
    {field : Field} {raw : Json} {fault : Fault}
    (h : op.apply given clock field raw = .error fault) : fault.isUpFront = false := by
  rw [← faultOf?_eq_some, faultOf?_apply, fault?] at h
  split at h
  · split at h
    · rename_i hvalue
      cases h
      unfold valueFor at hvalue
      split at hvalue
      · cases hvalue
      · split at hvalue <;> cases hvalue
        rfl
    · unfold Comparison.fault? at h
      split at h
      · split at h <;> cases h
        rfl
      · cases h
  · cases h
    rfl

namespace Evaluation

variable {e : Evaluation} {plan plan' : List PendingJoin} {draft draft' : Draft}

/-! ### Nodes

The check looks at nodes one by one, from the left and outside in, and stops at the first one
that has a fault.
-/

private theorem nodeFault?_leaf (l : Leaf) : e.nodeFault? (.leaf l) = faultOf? (e.operatorOf l) :=
    by
  simp only [nodeFault?, operatorOf, Registry.get, Registry.contains_eq_isSome_find?]
  cases e.registry.find? (e.registry.nameOf (refOf l.filter)) <;> rfl

theorem check_fault (tree : FilterTree) :
    faultOf? (e.check tree) = tree.nodes.findSome? e.nodeFault? := by
  induction tree with
  | leaf l =>
      rw [FilterTree.nodes, List.findSome?_singleton, nodeFault?_leaf, check]
      cases e.operatorOf l <;> rfl
  | not inner ih =>
      rw [check, ih]
      rfl
  | and left right ihleft ihright =>
      rw [FilterTree.nodes, List.findSome?_cons, List.findSome?_append, ← ihleft, ← ihright, check]
      cases e.check left <;> rfl
  | or left right ihleft ihright =>
      rw [FilterTree.nodes, List.findSome?_cons, List.findSome?_append, ← ihleft, ← ihright, check]
      cases e.check left <;> rfl
  | binding operator left right => rfl

theorem checkQuery_fault (query : Query) :
    faultOf? (e.checkQuery query) = query.nodes.findSome? e.nodeFault? := by
  unfold checkQuery Query.nodes
  cases query.filter with
  | none => rfl
  | some tree => exact check_fault tree

/-! ### Filters

A filter is evaluated in the draft that the ones before it have left.  It fails there as it
does in the draft of the base statement, because a name that leads to a column does so whatever
has been joined.
-/

/-- The type of a field is that of the column that its name leads to. -/
theorem resolve_typed {name : String} {path : List String} {column : Column}
    (h : draft.Follows e.scope plan) (hname : e.scope.destination name = .ok (path, column)) :
    ∃ resolution, e.scope.resolve draft.joined name = .ok resolution ∧
      resolution.field.type = column.type := by
  obtain ⟨resolution, hresolve, -, -, hfield⟩ := h.resolve_ok hname
  obtain ⟨_, _, hname', -, hcolumn⟩ := Scope.destination_of_field? (hfield _ (List.prefix_refl _))
  cases hname.symm.trans hname'
  exact ⟨resolution, hresolve, (congrArg Column.type hcolumn).symm⟩

theorem evaluateLeaf_eq_fault? {l : Leaf} {op : Operator} {path : List String} {column : Column}
    (h : draft.Follows e.scope plan) (hop : e.operatorOf l = .ok op)
    (hname : e.scope.destination l.name = .ok (path, column)) :
    faultOf? (e.evaluateLeaf draft l) =
      op.fault? (some e.converters) e.clock column.type l.value := by
  obtain ⟨resolution, hresolve, htype⟩ := resolve_typed h hname
  simp only [evaluateLeaf, hop, hresolve]
  rw [← htype, ← op.faultOf?_apply]
  cases op.apply (some e.converters) e.clock resolution.field l.value <;> rfl

/-- A filter fails with the same fault, or succeeds, in any two drafts that follow plans. -/
theorem evaluateLeaf_fault (h : draft.Follows e.scope plan) (h' : draft'.Follows e.scope plan')
    (l : Leaf) : faultOf? (e.evaluateLeaf draft l) = faultOf? (e.evaluateLeaf draft' l) := by
  cases hop : e.operatorOf l with
  | error fault => simp only [evaluateLeaf, hop]
  | ok op =>
      cases hname : e.scope.destination l.name with
      | error fault =>
          simp only [evaluateLeaf, hop, h.resolve_error hname, h'.resolve_error hname]
      | ok target =>
          obtain ⟨path, column⟩ := target
          rw [evaluateLeaf_eq_fault? h hop hname, evaluateLeaf_eq_fault? h' hop hname]

/-- Evaluating a filter as the only one evaluates it from the base statement. -/
theorem leafFault?_eq (h : draft.Follows e.scope plan) (l : Leaf) :
    e.leafFault? l = faultOf? (e.evaluateLeaf draft l) := by
  have hstart := Draft.follows_allOf e.scope e.scope.model.table
  rw [evaluateLeaf_fault h hstart]
  simp only [leafFault?, evaluate, Query.only, checkQuery, check, applyFilter, evaluateTree]
  cases hop : e.operatorOf l with
  | error fault => simp [evaluateLeaf, hop, Except.map, bind, Except.bind]
  | ok op =>
      simp only [Except.map, bind, Except.bind]
      cases e.evaluateLeaf (Draft.start (.allOf e.scope.model.table)) l <;> rfl

private theorem inTurn_fault {combine : Condition → Condition → Condition} {leaves more : List Leaf}
    {first : Except Fault (Condition × Draft)} {second : Draft → Except Fault (Condition × Draft)}
    (hfirst : faultOf? first = leaves.findSome? e.leafFault?)
    (hsecond : ∀ condition next, first = .ok (condition, next) →
      faultOf? (second next) = more.findSome? e.leafFault?) :
    faultOf? (inTurn combine first second) = (leaves ++ more).findSome? e.leafFault? := by
  unfold inTurn
  rw [List.findSome?_append, ← hfirst]
  cases first with
  | error fault => rfl
  | ok built =>
      obtain ⟨condition, next⟩ := built
      rw [faultOf?_ok, Option.none_or, ← hsecond condition next rfl]
      dsimp only
      cases second next <;> rfl

private theorem check_operands {left right : FilterTree} (h : e.check (.and left right) = .ok ()) :
    e.check left = .ok () ∧ e.check right = .ok () := by
  rw [check] at h
  cases hleft : e.check left with
  | error fault =>
      rw [hleft] at h
      cases h
  | ok _ =>
      rw [hleft] at h
      exact ⟨rfl, h⟩

/-- The draft that a tree leaves follows a plan, if the draft before it did. -/
theorem follows_of_evaluateTree {tree : FilterTree} {condition : Condition}
    (h : draft.Follows e.scope plan) (hrun : e.evaluateTree draft tree = .ok (condition, draft')) :
    ∃ plan', draft'.Follows e.scope plan' := by
  obtain ⟨plan', hgain⟩ := (evaluateTree_builds h (List.prefix_refl _)).gains condition draft' hrun
  exact ⟨plan', hgain.follows⟩

/-- A tree whose nodes have no fault fails as the first of its filters that fails. -/
theorem evaluateTree_fault {tree : FilterTree} (h : draft.Follows e.scope plan)
    (hcheck : e.check tree = .ok ()) :
    faultOf? (e.evaluateTree draft tree) = tree.leaves.findSome? e.leafFault? := by
  induction tree generalizing draft plan with
  | leaf l =>
      rw [FilterTree.leaves, List.findSome?_singleton, leafFault?_eq h]
      rfl
  | not inner ih =>
      rw [FilterTree.leaves, ← ih h hcheck, evaluateTree]
      cases e.evaluateTree draft inner <;> rfl
  | and left right ihleft ihright =>
      obtain ⟨hleft, hright⟩ := check_operands hcheck
      refine inTurn_fault (ihleft h hleft) ?_
      intro condition next hrun
      obtain ⟨plan', hnext⟩ := follows_of_evaluateTree h hrun
      exact ihright hnext hright
  | or left right ihleft ihright =>
      -- the check does not tell the two connectives apart
      have hboth : e.check (.and left right) = .ok () := hcheck
      obtain ⟨hleft, hright⟩ := check_operands hboth
      refine inTurn_fault (ihleft h hleft) ?_
      intro condition next hrun
      obtain ⟨plan', hnext⟩ := follows_of_evaluateTree h hrun
      exact ihright hnext hright
  | binding operator left right => cases hcheck

/-! ### Orders -/

theorem applyOrder_fault (h : draft.Follows e.scope plan) (order : OrderSpec) :
    faultOf? (e.applyOrder draft order) = e.orderFault? order := by
  have hfresh := Draft.follows_allOf e.scope e.scope.model.table
  rw [applyOrder, Draft.apply, orderFault?]
  cases hname : e.scope.destination order.name with
  | error fault =>
      rw [h.resolve_error hname, show e.scope.resolve [] order.name = .error fault from
        hfresh.resolve_error hname]
      rfl
  | ok target =>
      obtain ⟨path, column⟩ := target
      obtain ⟨resolution, hresolve, -, -, -⟩ := h.resolve_ok hname
      obtain ⟨fresh, hfresh', -, -, -⟩ := hfresh.resolve_ok hname
      rw [hresolve, show e.scope.resolve [] order.name = .ok fresh from hfresh']
      rfl

theorem applyOrders_fault (h : draft.Follows e.scope plan) (orders : List OrderSpec) :
    faultOf? (e.applyOrders draft orders) = orders.findSome? e.orderFault? := by
  induction orders generalizing draft plan with
  | nil => rfl
  | cons order rest ih =>
      rw [applyOrders, List.findSome?_cons, ← applyOrder_fault h order]
      cases hfirst : e.applyOrder draft order with
      | error fault => rfl
      | ok next =>
          obtain ⟨plan', _, -, hgain⟩ := applyOrder_ok h (List.prefix_refl _) hfirst
          exact ih hgain.follows

/-! ### Queries -/

theorem applyFilter_fault {query : Query} (h : draft.Follows e.scope plan)
    (hcheck : e.checkQuery query = .ok ()) :
    faultOf? (e.applyFilter draft query.filter) = query.leaves.findSome? e.leafFault? := by
  unfold checkQuery at hcheck
  unfold Query.leaves
  cases hfilter : query.filter with
  | none => rfl
  | some tree =>
      rw [hfilter] at hcheck
      rw [applyFilter, ← evaluateTree_fault h hcheck]
      cases e.evaluateTree draft tree <;> rfl

theorem evaluate_fault (query : Query) :
    faultOf? (e.evaluate (.allOf e.scope.model.table) query) = e.firstFault? query := by
  have hstart := Draft.follows_allOf e.scope e.scope.model.table
  rw [firstFault?, ← checkQuery_fault]
  simp only [evaluate, bind, Except.bind, pure, Except.pure]
  cases hcheck : e.checkQuery query with
  | error fault => rfl
  | ok _ =>
      rw [← applyFilter_fault hstart hcheck]
      cases hfiltered : e.applyFilter (Draft.start (.allOf e.scope.model.table)) query.filter with
      | error fault => rfl
      | ok filtered =>
          obtain ⟨plan, _, -, hgain⟩ := applyFilter_ok hstart rfl (List.prefix_refl _) hfiltered
          simp only [faultOf?_ok, Option.none_or, ← applyOrders_fault hgain.follows]
          cases e.applyOrders filtered query.orders <;> rfl

/-! ### The check before anything is built

The faults of nodes are of two sorts that no filter can fail with once its operator is known,
so the outcome of an evaluation tells whether the check was passed.
-/

private theorem isUpFront_evaluateLeaf {l : Leaf} {op : Operator} {fault : Fault}
    (hop : e.operatorOf l = .ok op) (h : e.evaluateLeaf draft l = .error fault) :
    fault.isUpFront = false := by
  simp only [evaluateLeaf, hop] at h
  split at h
  · cases h
    rfl
  · split at h
    · rename_i happly
      cases h
      exact Operator.isUpFront_apply happly
    · cases h

private theorem isUpFront_nodeFault? {node : FilterTree} {fault : Fault}
    (h : e.nodeFault? node = some fault) : fault.isUpFront = true := by
  cases node with
  | leaf l =>
      simp only [nodeFault?] at h
      split at h <;> cases h
      rfl
  | binding operator left right =>
      cases h
      rfl
  | _ => cases h

private theorem leaf_mem_nodes {tree : FilterTree} {l : Leaf} (h : l ∈ tree.leaves) :
    .leaf l ∈ tree.nodes := by
  induction tree with
  | leaf l' =>
      cases List.mem_singleton.mp h
      exact List.mem_singleton_self _
  | not inner ih => exact List.mem_cons_of_mem _ (ih h)
  | _ =>
      rename_i ihleft ihright
      apply List.mem_cons_of_mem
      rcases List.mem_append.mp h with hleft | hright
      · exact List.mem_append_left _ (ihleft hleft)
      · exact List.mem_append_right _ (ihright hright)

private theorem leaf_mem_query_nodes {query : Query} {l : Leaf} (h : l ∈ query.leaves) :
    .leaf l ∈ query.nodes := by
  unfold Query.leaves at h
  unfold Query.nodes
  cases hfilter : query.filter with
  | none =>
      rw [hfilter] at h
      cases h
  | some tree =>
      rw [hfilter] at h
      exact leaf_mem_nodes h

theorem checkQuery_iff (query : Query) :
    e.checkQuery query = .ok () ↔ ∀ node ∈ query.nodes, e.nodeFault? node = none := by
  rw [← List.findSome?_eq_none_iff, ← checkQuery_fault, faultOf?_eq_none]
  constructor
  · intro hcheck
    exact ⟨(), hcheck⟩
  · rintro ⟨_, hcheck⟩
    exact hcheck

/-- The check is passed by the queries that do not fail over a node. -/
theorem checkQuery_iff_evaluate (query : Query) :
    e.checkQuery query = .ok () ↔
      ∀ fault, e.evaluate (.allOf e.scope.model.table) query = .error fault →
        fault.isUpFront = false := by
  have hstart := Draft.follows_allOf e.scope e.scope.model.table
  constructor
  · intro hcheck fault hfault
    rw [← faultOf?_eq_some, evaluate_fault, firstFault?, ← checkQuery_fault, hcheck, faultOf?_ok,
      Option.none_or, Option.or_eq_some_iff] at hfault
    rcases hfault with hleaf | ⟨-, horder⟩
    · -- the leaf is a node without a fault, so its operator is known
      obtain ⟨l, hl, hfault⟩ := List.exists_of_findSome?_eq_some hleaf
      have hnode := (checkQuery_iff query).mp hcheck _ (leaf_mem_query_nodes hl)
      rw [nodeFault?_leaf, faultOf?_eq_none] at hnode
      obtain ⟨op, hop⟩ := hnode
      rw [leafFault?_eq hstart, faultOf?_eq_some] at hfault
      exact isUpFront_evaluateLeaf hop hfault
    · obtain ⟨order, -, hfault⟩ := List.exists_of_findSome?_eq_some horder
      obtain ⟨reason, -, rfl⟩ := Option.map_eq_some_iff.mp hfault
      rfl
  · intro hnone
    cases hcheck : e.checkQuery query with
    | ok _ => rfl
    | error fault =>
        have hnode : query.nodes.findSome? e.nodeFault? = some fault := by
          rw [← checkQuery_fault, hcheck, faultOf?_error]
        obtain ⟨node, -, hfault⟩ := List.exists_of_findSome?_eq_some hnode
        have hevaluate : e.evaluate (.allOf e.scope.model.table) query = .error fault := by
          rw [evaluate, hcheck]
          rfl
        have hfalse := hnone fault hevaluate
        rw [isUpFront_nodeFault? hfault] at hfalse
        cases hfalse

end Evaluation

/-! ### Endpoints -/

namespace Endpoint

/--
**An evaluation reports the first fault, in an order that is fixed in advance, and it
succeeds if there is none.**

No filter is asked in the presence of another one, so none changes the outcome of another.
The check made before anything is built is passed unless some node, anywhere in the tree,
has no meaning or an unknown operator, and this is reported if and only if it is not passed.
-/
theorem faultOf?_evaluate (e : Endpoint) (clock : DateTime) (query : Query) :
    faultOf? (e.evaluate clock query) = e.firstFault? clock query ∧
      ∀ session evaluation, e.session = .ok session → e.evaluation clock = .ok evaluation →
        (evaluation.checkQuery query = .ok () ↔
          ∀ node ∈ query.nodes, evaluation.nodeFault? node = none) ∧
        (evaluation.checkQuery query = .ok () ↔
          ∀ fault, e.evaluate clock query = .error fault → fault.isUpFront = false) := by
  constructor
  · unfold firstFault?
    cases hmodel : e.model with
    | error fault =>
        rw [evaluate, evaluateFrom_of_model hmodel]
        rfl
    | ok model =>
        cases hsession : e.session with
        | error fault =>
            rw [evaluate, evaluateFrom_of_session hsession]
            rfl
        | ok session =>
            cases hregistry : e.config.registry with
            | error fault =>
                rw [evaluate, evaluateFrom_of_registry hmodel hsession hregistry]
                rfl
            | ok registry =>
                have hevaluation : e.evaluation clock = .ok ⟨⟨e.schema, model, e.config.bindings⟩,
                    registry, e.config.converters.getD Converters.builtIn, clock⟩ :=
                  evaluation_eq hmodel hregistry
                rw [evaluate_eq hsession hevaluation]
                exact Evaluation.evaluate_fault query
  · intro session evaluation hsession hevaluation
    rw [evaluate_eq hsession hevaluation]
    exact ⟨Evaluation.checkQuery_iff query, Evaluation.checkQuery_iff_evaluate query⟩

end Endpoint

/-! ### A library -/

namespace Library

/-- Nothing is bound to the name of the first filter, but the operator of the last is unknown. -/
example : faultOf? ((endpoint .sqlite).evaluate noon
    ⟨some (.and (.leaf ⟨"shelf", none, .null⟩) (.leaf ⟨"title", some "near", .null⟩)), []⟩) =
      some (.unknownFilter "near") := by
  cbv

end Library

end FilterSelect
