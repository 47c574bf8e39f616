/-
The statement that a query asks for, put together without state.

An evaluation goes through a query from left to right, keeps a list of what it has
joined and numbers each join as it comes.  Here the same statement is written down
from the query as a whole: the paths that its names use are listed first, and then
every join, every condition and every order is determined by that list.

The main result is that the two agree on every query, also on which queries have a
statement at all.  What carries it is that a draft follows a plan whose paths are
always a first part of the final list, so that a number given early is the number
that the whole query gives.
-/
import FilterSelect.Endpoint
import FilterSelect.Proofs.Joins.Resolution
import Mathlib.Data.List.Permutation

namespace FilterSelect

/-- The condition with the shape of a tree, made of conditions for its leaves. -/
def FilterTree.mirror? (leaf : Leaf → Option Condition) : FilterTree → Option Condition
  | .leaf l => leaf l
  | .not inner => (inner.mirror? leaf).map .not
  | .and left right => do
    let first ← left.mirror? leaf
    let second ← right.mirror? leaf
    some (.and first second)
  | .or left right => do
    let first ← left.mirror? leaf
    let second ← right.mirror? leaf
    some (.or first second)
  | .binding _ _ _ => none

section Mirror

variable {leaf : Leaf → Option Condition} {inner left right : FilterTree} {condition : Condition}

theorem FilterTree.mirror?_not (h : (not inner).mirror? leaf = some condition) :
    ∃ x, inner.mirror? leaf = some x ∧ condition = .not x := by
  obtain ⟨x, hinner, rfl⟩ := Option.map_eq_some_iff.mp h
  exact ⟨x, hinner, rfl⟩

theorem FilterTree.mirror?_and (h : (and left right).mirror? leaf = some condition) :
    ∃ x y, left.mirror? leaf = some x ∧ right.mirror? leaf = some y ∧ condition = .and x y := by
  simp only [mirror?, bind, Option.bind_eq_some_iff] at h
  obtain ⟨x, hleft, y, hright, hboth⟩ := h
  cases hboth
  exact ⟨x, y, hleft, hright, rfl⟩

theorem FilterTree.mirror?_or (h : (or left right).mirror? leaf = some condition) :
    ∃ x y, left.mirror? leaf = some x ∧ right.mirror? leaf = some y ∧ condition = .or x y := by
  simp only [mirror?, bind, Option.bind_eq_some_iff] at h
  obtain ⟨x, hleft, y, hright, hboth⟩ := h
  cases hboth
  exact ⟨x, y, hleft, hright, rfl⟩

end Mirror

namespace Evaluation

/-- The condition that the operator of a leaf makes of the leaf's column and scalar. -/
def leafCondition? (e : Evaluation) (used : List (List String)) (l : Leaf) : Option Condition := do
  let op ← (e.operatorOf l).toOption
  let field ← e.scope.field? used l.name
  (op.apply (some e.converters) e.clock field l.value).toOption

/-- The condition of a whole filter, where there is one. -/
def filterCondition? (e : Evaluation) (used : List (List String)) :
    Option FilterTree → Option (Option Condition)
  | none => some none
  | some tree => (tree.mirror? (e.leafCondition? used)).map some

/-- The column that an order names, with its direction. -/
def order? (e : Evaluation) (used : List (List String)) (order : OrderSpec) : Option Order :=
  (e.scope.field? used order.name).map fun field => ⟨field.toColumnRef, order.direction⟩

/--
The statement that a query asks for: all rows of the root table, joined once for each
used path in the order of the paths, kept by the condition that mirrors the filter,
and ordered by the columns that the orders name.
-/
def statement? (e : Evaluation) (query : Query) : Option Select := do
  let used := e.scope.usedPaths query.names
  let joins ← used.mapM (e.scope.join? used)
  let condition ← e.filterCondition? used query.filter
  let orders ← query.orders.mapM (e.order? used)
  some { Select.allOf e.scope.model.table with joins, condition, orders }

end Evaluation

/-- The statement that a query asks for at an endpoint. -/
def Endpoint.statement? (e : Endpoint) (clock : DateTime) (query : Query) : Option Select :=
  match e.session, e.evaluation clock with
  | .ok _, .ok evaluation => evaluation.statement? query
  | _, _ => none

/-! ### Drafts that only gain joins

A draft follows a plan, and resolving a name adds to both.  Nothing else of the statement
changes on the way, so a draft is known by its plan and by the statement that it began with.
-/

namespace Draft

/--
A draft in which names were resolved: its plan has grown by the joins that they
lacked, and up to its joins its statement is `select`.
-/
structure Gains (scope : Scope) (plan : List PendingJoin) (names : List String) (select : Select)
    (plan' : List PendingJoin) (draft' : Draft) : Prop where
  follows : draft'.Follows scope plan'
  paths : pathsOf plan' = (pathsOf plan ++ scope.visits names).eraseDups
  frame : draft'.select = { select with joins := draft'.select.joins }

variable {scope : Scope} {plan plan' plan'' : List PendingJoin} {draft draft' draft'' : Draft}
  {names more : List String} {select : Select}

theorem Follows.gains (h : draft.Follows scope plan) :
    Gains scope plan [] draft.select plan draft where
  follows := h
  paths := by rw [Scope.visits_nil, List.append_nil, eraseDups_of_nodup h.planned.nodup]
  frame := rfl

theorem Gains.trans {select' select'' : Select} (h : Gains scope plan names select plan' draft')
    (h' : Gains scope plan' more select' plan'' draft'')
    (hframe : draft''.select = { select'' with joins := draft''.select.joins }) :
    Gains scope plan (names ++ more) select'' plan'' draft'' where
  follows := h'.follows
  paths := by
    rw [h'.paths, h.paths, eraseDups_eraseDups_append, Scope.visits_append, List.append_assoc]
  frame := hframe

private theorem prefix_of_append {used : List (List String)}
    (h : (pathsOf plan ++ scope.visits (names ++ more)).eraseDups <+: used) :
    (pathsOf plan ++ scope.visits names).eraseDups <+: used := by
  rw [Scope.visits_append, ← List.append_assoc] at h
  exact (eraseDups_prefix_append _ _).trans h

/-- What is resolved afterwards continues with the same list of used paths. -/
theorem Gains.prefix_of_append {used : List (List String)}
    (h : Gains scope plan names select plan' draft')
    (hused : (pathsOf plan ++ scope.visits (names ++ more)).eraseDups <+: used) :
    (pathsOf plan' ++ scope.visits more).eraseDups <+: used := by
  rwa [h.paths, eraseDups_eraseDups_append, List.append_assoc, ← Scope.visits_append]

/-- A name with a destination can be resolved in any draft, and yields the field it determines. -/
theorem Follows.resolve_gains {used : List (List String)} {name : String} {path : List String}
    {column : Column} (h : draft.Follows scope plan)
    (hused : (pathsOf plan ++ scope.visits [name]).eraseDups <+: used)
    (hname : scope.destination name = .ok (path, column)) :
    ∃ resolution plan', scope.resolve draft.joined name = .ok resolution ∧
      Gains scope plan [name] draft.select plan' (draft.commit resolution) ∧
      scope.field? used name = some resolution.field := by
  obtain ⟨resolution, hresolve, hfollows, hpaths, hfield⟩ := h.resolve_ok hname
  have hvisits : pathsOf (plan ++ resolution.pending) =
      (pathsOf plan ++ scope.visits [name]).eraseDups := by
    rw [hpaths, Scope.visits_singleton, Scope.pathOf_of_destination hname]
  exact ⟨resolution, plan ++ resolution.pending, hresolve, ⟨hfollows, hvisits, rfl⟩,
    hfield used (hvisits ▸ hused)⟩

end Draft

/-! ### Leaves and trees

A leaf depends on the joins in one place, the qualifier of its column.  That is the same in
every draft whose paths are a first part of all used paths.
-/

namespace Evaluation

open Draft (Gains Follows)

/--
A run that builds a condition from a draft: it builds the expected one, or none where
none is expected, and if it succeeds the draft has gained the joins of some names.
-/
structure Builds (scope : Scope) (plan : List PendingJoin) (draft : Draft) (names : List String)
    (run : Except Fault (Condition × Draft)) (expected : Option Condition) : Prop where
  condition : run.toOption.map Prod.fst = expected
  gains : ∀ condition draft', run = .ok (condition, draft') →
    ∃ plan', Gains scope plan names draft.select plan' draft'

variable {e : Evaluation} {plan : List PendingJoin} {draft : Draft} {used : List (List String)}

theorem evaluateLeaf_builds {l : Leaf} (h : draft.Follows e.scope plan)
    (hused : (pathsOf plan ++ e.scope.visits [l.name]).eraseDups <+: used) :
    Builds e.scope plan draft [l.name] (e.evaluateLeaf draft l) (e.leafCondition? used l) := by
  unfold evaluateLeaf leafCondition?
  cases hop : e.operatorOf l with
  | error fault => exact ⟨rfl, by simp⟩
  | ok op =>
      cases hname : e.scope.destination l.name with
      | error fault =>
          simp only [h.resolve_error hname]
          exact ⟨by simp [Scope.field?, hname, Except.toOption], by simp⟩
      | ok target =>
          obtain ⟨path, column⟩ := target
          obtain ⟨resolution, plan', hresolve, hgain, hfield⟩ := h.resolve_gains hused hname
          simp only [hresolve, hfield]
          cases hcondition : op.apply (some e.converters) e.clock resolution.field l.value with
          | error fault => exact ⟨by simp [Except.toOption, hcondition], by simp⟩
          | ok condition =>
              refine ⟨by simp [Except.toOption, hcondition], ?_⟩
              intro condition' draft' hok
              cases hok
              exact ⟨plan', hgain⟩

/-- Two runs, the second one from where the first one ends, and their conditions combined. -/
def inTurn (combine : Condition → Condition → Condition) (first : Except Fault (Condition × Draft))
    (second : Draft → Except Fault (Condition × Draft)) : Except Fault (Condition × Draft) :=
  match first with
  | .error fault => .error fault
  | .ok (x, draft) =>
    match second draft with
    | .error fault => .error fault
    | .ok (y, draft) => .ok (combine x y, draft)

theorem Builds.inTurn {scope : Scope} {names more : List String}
    {first : Except Fault (Condition × Draft)} {second : Draft → Except Fault (Condition × Draft)}
    {a b : Option Condition} (combine : Condition → Condition → Condition)
    (hfirst : Builds scope plan draft names first a)
    (hsecond : ∀ plan' draft', Gains scope plan names draft.select plan' draft' →
      Builds scope plan' draft' more (second draft') b) :
    Builds scope plan draft (names ++ more) (inTurn combine first second)
      (do let x ← a; let y ← b; some (combine x y)) := by
  obtain ⟨rfl, hgains⟩ := hfirst
  unfold Evaluation.inTurn
  cases first with
  | error fault => exact ⟨rfl, by simp⟩
  | ok built =>
      obtain ⟨x, draft'⟩ := built
      obtain ⟨plan', hgain⟩ := hgains x draft' rfl
      obtain ⟨hcondition, hgains'⟩ := hsecond plan' draft' hgain
      simp only [← hcondition]
      cases hrun : second draft' with
      | error fault => exact ⟨rfl, by simp⟩
      | ok built' =>
          obtain ⟨y, draft''⟩ := built'
          obtain ⟨plan'', hgain'⟩ := hgains' y draft'' hrun
          refine ⟨rfl, ?_⟩
          intro condition last hok
          cases hok
          exact ⟨plan'', hgain.trans hgain' (by rw [hgain'.frame, hgain.frame])⟩

/--
The condition built for a tree mirrors the tree.  The induction is on the tree, and
what it carries from a left operand to a right one is that the draft has gained just
the joins of the left operand's names.
-/
theorem evaluateTree_builds {tree : FilterTree} (h : draft.Follows e.scope plan)
    (hused : (pathsOf plan ++ e.scope.visits (tree.leaves.map Leaf.name)).eraseDups <+: used) :
    Builds e.scope plan draft (tree.leaves.map Leaf.name) (e.evaluateTree draft tree)
      (tree.mirror? (e.leafCondition? used)) := by
  induction tree generalizing draft plan with
  | leaf l => exact evaluateLeaf_builds h hused
  | not inner ih =>
      obtain ⟨hcondition, hgains⟩ := ih h hused
      rw [evaluateTree, FilterTree.mirror?, ← hcondition]
      cases hinner : e.evaluateTree draft inner with
      | error fault => exact ⟨rfl, by simp⟩
      | ok built =>
          refine ⟨rfl, ?_⟩
          intro condition draft' hok
          cases hok
          exact hgains _ _ hinner
  | and left right ihleft ihright =>
      rw [FilterTree.leaves, List.map_append] at hused ⊢
      rw [evaluateTree, FilterTree.mirror?]
      refine Builds.inTurn .and (ihleft h (Draft.prefix_of_append hused)) ?_
      intro plan' draft' hgain
      exact ihright hgain.follows (hgain.prefix_of_append hused)
  | or left right ihleft ihright =>
      rw [FilterTree.leaves, List.map_append] at hused ⊢
      rw [evaluateTree, FilterTree.mirror?]
      refine Builds.inTurn .or (ihleft h (Draft.prefix_of_append hused)) ?_
      intro plan' draft' hgain
      exact ihright hgain.follows (hgain.prefix_of_append hused)
  | binding operator left right => exact ⟨rfl, by simp [evaluateTree]⟩

/-- A tree that has a condition passes the check made before anything is built. -/
theorem check_ok {tree : FilterTree} {condition : Condition}
    (h : tree.mirror? (e.leafCondition? used) = some condition) : e.check tree = .ok () := by
  induction tree generalizing condition with
  | leaf l =>
      rw [FilterTree.mirror?, leafCondition?] at h
      rw [check]
      cases hop : e.operatorOf l with
      | error fault => simp [hop, Except.toOption] at h
      | ok op => rfl
  | not inner ih =>
      obtain ⟨x, hinner, -⟩ := FilterTree.mirror?_not h
      exact ih hinner
  | and left right ihleft ihright =>
      obtain ⟨x, y, hleft, hright, -⟩ := FilterTree.mirror?_and h
      rw [check, ihleft hleft]
      exact ihright hright
  | or left right ihleft ihright =>
      obtain ⟨x, y, hleft, hright, -⟩ := FilterTree.mirror?_or h
      rw [check, ihleft hleft]
      exact ihright hright
  | binding operator left right => cases h

/-! ### The filter and the orders of a query

A filter adds its condition and an order its column, so up to these the statement still only
gains joins.
-/

/-- The logical names of a filter from left to right. -/
def filterNames : Option FilterTree → List String
  | none => []
  | some tree => tree.leaves.map Leaf.name

theorem names_eq (query : Query) :
    query.names = filterNames query.filter ++ query.orders.map OrderSpec.name := by
  unfold Query.names filterNames
  cases query.filter <;> rfl

theorem applyFilter_ok {filter : Option FilterTree} {filtered : Draft}
    (h : draft.Follows e.scope plan) (hcondition : draft.select.condition = none)
    (hused : (pathsOf plan ++ e.scope.visits (filterNames filter)).eraseDups <+: used)
    (hok : e.applyFilter draft filter = .ok filtered) :
    ∃ plan' condition, e.filterCondition? used filter = some condition ∧
      Gains e.scope plan (filterNames filter) { draft.select with condition } plan' filtered := by
  cases filter with
  | none =>
      cases hok
      refine ⟨plan, none, rfl, ?_⟩
      have hselect : { draft.select with condition := none } = draft.select := by
        rw [← hcondition]
      rw [hselect]
      exact h.gains
  | some tree =>
      obtain ⟨hbuilt, hgains⟩ := evaluateTree_builds h hused
      rw [applyFilter] at hok
      cases hrun : e.evaluateTree draft tree with
      | error fault =>
          rw [hrun] at hok
          cases hok
      | ok built =>
          obtain ⟨condition, draft'⟩ := built
          obtain ⟨plan', hgain⟩ := hgains condition draft' hrun
          rw [hrun] at hok hbuilt
          cases hok
          refine ⟨plan', some condition, ?_, ?_⟩
          · rw [filterCondition?, ← hbuilt]
            rfl
          · refine ⟨hgain.follows.of_joins_eq rfl rfl, hgain.paths, ?_⟩
            have hnone : draft'.select.condition = none := by
              rw [hgain.frame]
              exact hcondition
            show draft'.select.restrict condition = _
            rw [Select.restrict_of_none hnone, hgain.frame]

private theorem applyFilter_error {filter : Option FilterTree} {fault : Fault}
    (h : draft.Follows e.scope plan)
    (hused : (pathsOf plan ++ e.scope.visits (filterNames filter)).eraseDups <+: used)
    (herror : e.applyFilter draft filter = .error fault) :
    e.filterCondition? used filter = none := by
  cases filter with
  | none => cases herror
  | some tree =>
      have hbuilt := (evaluateTree_builds h hused).condition
      rw [applyFilter] at herror
      cases hrun : e.evaluateTree draft tree with
      | error fault' =>
          rw [hrun] at hbuilt
          rw [filterCondition?, ← hbuilt]
          rfl
      | ok built =>
          rw [hrun] at herror
          cases herror

/-- A query whose filter has a condition passes the check made before anything is built. -/
theorem checkQuery_ok {query : Query} {condition : Option Condition}
    (h : e.filterCondition? used query.filter = some condition) : e.checkQuery query = .ok () := by
  rw [checkQuery]
  cases hfilter : query.filter with
  | none => rfl
  | some tree =>
      rw [hfilter, filterCondition?, Option.map_eq_some_iff] at h
      obtain ⟨condition', hmirror, -⟩ := h
      exact check_ok hmirror

theorem applyOrder_ok {order : OrderSpec} {ordered : Draft} (h : draft.Follows e.scope plan)
    (hused : (pathsOf plan ++ e.scope.visits [order.name]).eraseDups <+: used)
    (hok : e.applyOrder draft order = .ok ordered) :
    ∃ plan' column, e.order? used order = some column ∧
      Gains e.scope plan [order.name]
        { draft.select with orders := draft.select.orders ++ [column] } plan' ordered := by
  rw [applyOrder, Draft.apply] at hok
  cases hname : e.scope.destination order.name with
  | error fault =>
      rw [h.resolve_error hname] at hok
      cases hok
  | ok target =>
      obtain ⟨path, column⟩ := target
      obtain ⟨resolution, plan', hresolve, hgain, hfield⟩ := h.resolve_gains hused hname
      rw [hresolve] at hok
      cases hok
      refine ⟨plan', ⟨resolution.field.toColumnRef, order.direction⟩, ?_, ?_⟩
      · rw [order?, hfield]
        rfl
      · exact ⟨hgain.follows.of_joins_eq rfl rfl, hgain.paths, rfl⟩

private theorem applyOrder_error {order : OrderSpec} {fault : Fault}
    (h : draft.Follows e.scope plan)
    (herror : e.applyOrder draft order = .error fault) : e.order? used order = none := by
  rw [applyOrder, Draft.apply] at herror
  cases hname : e.scope.destination order.name with
  | error fault' => simp [order?, Scope.field?, hname, Except.toOption]
  | ok target =>
      obtain ⟨path, column⟩ := target
      obtain ⟨resolution, hresolve, -, -, -⟩ := h.resolve_ok hname
      rw [hresolve] at herror
      cases herror

theorem applyOrders_ok {orders : List OrderSpec} {ordered : Draft} (h : draft.Follows e.scope plan)
    (hused : (pathsOf plan ++ e.scope.visits (orders.map OrderSpec.name)).eraseDups <+: used)
    (hok : e.applyOrders draft orders = .ok ordered) :
    ∃ plan' columns, orders.mapM (e.order? used) = some columns ∧
      Gains e.scope plan (orders.map OrderSpec.name)
        { draft.select with orders := draft.select.orders ++ columns } plan' ordered := by
  induction orders generalizing draft plan with
  | nil =>
      cases hok
      exact ⟨plan, [], rfl, by simpa using h.gains⟩
  | cons order rest ih =>
      rw [List.map_cons, ← List.singleton_append] at hused ⊢
      rw [applyOrders] at hok
      cases hfirst : e.applyOrder draft order with
      | error fault =>
          rw [hfirst] at hok
          cases hok
      | ok draft' =>
          rw [hfirst] at hok
          obtain ⟨plan', column, hcolumn, hgain⟩ :=
            applyOrder_ok h (Draft.prefix_of_append hused) hfirst
          obtain ⟨plan'', columns, hcolumns, hgain'⟩ :=
            ih hgain.follows (hgain.prefix_of_append hused) hok
          refine ⟨plan'', column :: columns, ?_, hgain.trans hgain' ?_⟩
          · simp [hcolumn, hcolumns]
          · rw [hgain'.frame, hgain.frame]
            simp

private theorem applyOrders_error {orders : List OrderSpec} {fault : Fault}
    (h : draft.Follows e.scope plan)
    (hused : (pathsOf plan ++ e.scope.visits (orders.map OrderSpec.name)).eraseDups <+: used)
    (herror : e.applyOrders draft orders = .error fault) :
    orders.mapM (e.order? used) = none := by
  induction orders generalizing draft plan with
  | nil => cases herror
  | cons order rest ih =>
      rw [List.map_cons, ← List.singleton_append] at hused
      rw [applyOrders] at herror
      cases hfirst : e.applyOrder draft order with
      | error fault' => simp [applyOrder_error h hfirst]
      | ok draft' =>
          rw [hfirst] at herror
          obtain ⟨plan', column, -, hgain⟩ :=
            applyOrder_ok h (Draft.prefix_of_append hused) hfirst
          simp [ih hgain.follows (hgain.prefix_of_append hused) herror]

/-! ### The whole statement -/

private theorem used_prefix (query : Query) :
    (pathsOf [] ++ e.scope.visits
      (filterNames query.filter ++ query.orders.map OrderSpec.name)).eraseDups <+:
      e.scope.usedPaths query.names := by
  rw [pathsOf_nil, List.nil_append, ← names_eq]
  exact List.prefix_refl _

/-- A statement that evaluates is joined by a plan whose paths are those that the query uses. -/
theorem evaluate_ok {query : Query} {select : Select}
    (hok : e.evaluate (Select.allOf e.scope.model.table) query = .ok select) :
    e.statement? query = some select ∧
      ∃ plan, e.scope.Planned plan ∧ pathsOf plan = e.scope.usedPaths query.names ∧
        select.joins = plan.map PendingJoin.join := by
  have hstart := Draft.follows_allOf e.scope e.scope.model.table
  have hused := e.used_prefix query
  simp only [evaluate, bind, Except.bind, pure, Except.pure] at hok
  split at hok
  · cases hok
  split at hok
  · cases hok
  rename_i filtered hfiltered
  split at hok
  · cases hok
  rename_i ordered hordered
  cases hok
  obtain ⟨plan', condition, hcondition, hfilter⟩ :=
    applyFilter_ok hstart rfl (Draft.prefix_of_append hused) hfiltered
  obtain ⟨plan, columns, hcolumns, horders⟩ :=
    applyOrders_ok hfilter.follows (hfilter.prefix_of_append hused) hordered
  have hpaths : pathsOf plan = e.scope.usedPaths query.names := by
    rw [horders.paths, hfilter.paths, eraseDups_eraseDups_append, List.append_assoc,
      ← Scope.visits_append, ← names_eq]
    rfl
  have hjoins : (e.scope.usedPaths query.names).mapM
      (e.scope.join? (e.scope.usedPaths query.names)) = some (plan.map PendingJoin.join) := by
    rw [← hpaths, pathsOf, List.mapM_map]
    exact mapM_eq_some_map (horders.follows.planned.join?_eq (List.prefix_refl _))
  refine ⟨?_, plan, horders.follows.planned, hpaths, horders.follows.joins⟩
  simp only [statement?, bind, Option.bind, hjoins, hcondition, hcolumns]
  rw [horders.frame, horders.follows.joins, hfilter.frame]
  simp [Draft.start, Select.allOf]

/-- What a statement that evaluates is made of. -/
theorem evaluate_parts {query : Query} {select : Select}
    (h : e.evaluate (Select.allOf e.scope.model.table) query = .ok select) :
    ∃ plan, e.scope.Planned plan ∧ pathsOf plan = e.scope.usedPaths query.names ∧
      select.table = e.scope.model.table ∧ select.output = .root ∧
      select.joins = plan.map PendingJoin.join ∧
      e.filterCondition? (pathsOf plan) query.filter = some select.condition := by
  obtain ⟨hstatement, plan, hplanned, hpaths, hjoins⟩ := evaluate_ok h
  simp only [statement?, bind, Option.bind_eq_some_iff] at hstatement
  obtain ⟨joins, -, condition, hcondition, orders, -, hselect⟩ := hstatement
  cases hselect
  exact ⟨plan, hplanned, hpaths, rfl, rfl, hjoins, hpaths ▸ hcondition⟩

theorem evaluate_error {query : Query} {fault : Fault}
    (herror : e.evaluate (Select.allOf e.scope.model.table) query = .error fault) :
    e.statement? query = none := by
  have hstart := Draft.follows_allOf e.scope e.scope.model.table
  have hused := e.used_prefix query
  have hcondition : e.filterCondition? (e.scope.usedPaths query.names) query.filter = none →
      e.statement? query = none := by
    intro h
    simp [statement?, h]
  simp only [evaluate, bind, Except.bind, pure, Except.pure] at herror
  split at herror
  · rename_i hcheck
    apply hcondition
    -- a filter with a condition would have passed the check
    cases hfilter : e.filterCondition? (e.scope.usedPaths query.names) query.filter with
    | none => rfl
    | some condition =>
        rw [checkQuery_ok hfilter] at hcheck
        cases hcheck
  split at herror
  · rename_i hfiltered
    exact hcondition (applyFilter_error hstart (Draft.prefix_of_append hused) hfiltered)
  rename_i filtered hfiltered
  split at herror
  · rename_i hordered
    obtain ⟨plan', condition, -, hfilter⟩ :=
      applyFilter_ok hstart rfl (Draft.prefix_of_append hused) hfiltered
    simp [statement?, applyOrders_error hfilter.follows (hfilter.prefix_of_append hused) hordered]
  · cases herror

end Evaluation

/-! ### Endpoints

What an endpoint lacks is reported before the query is looked at, so where it lacks something
there is no statement either.
-/

namespace Endpoint

variable {e : Endpoint} {base : Session → Entity → Select} {clock : DateTime} {query : Query}

theorem model_of_evaluation {evaluation : Evaluation}
    (h : e.evaluation clock = .ok evaluation) : e.model = .ok evaluation.scope.model := by
  simp only [Endpoint.evaluation, bind, Except.bind, pure, Except.pure] at h
  split at h
  · cases h
  rename_i model hmodel
  split at h
  · cases h
  cases h
  exact hmodel

theorem orBuiltIn_of_evaluation {evaluation : Evaluation}
    (h : e.evaluation clock = .ok evaluation) :
    Converters.orBuiltIn (some evaluation.converters) =
      Converters.orBuiltIn e.config.converters := by
  simp only [Endpoint.evaluation, bind, Except.bind, pure, Except.pure] at h
  split at h
  · cases h
  split at h
  · cases h
  cases h
  cases e.config.converters <;> rfl

/-- An endpoint with a model and operators has all that an evaluation needs. -/
theorem evaluation_eq {model : Entity} {registry : Registry} (hmodel : e.model = .ok model)
    (hregistry : e.config.registry = .ok registry) :
    e.evaluation clock = .ok ⟨⟨e.schema, model, e.config.bindings⟩, registry,
      e.config.converters.getD Converters.builtIn, clock⟩ := by
  simp only [Endpoint.evaluation, hmodel, hregistry, bind, Except.bind]
  rfl

theorem evaluateFrom_of_model {fault : Fault} (h : e.model = .error fault) :
    e.evaluateFrom base clock query = .error fault := by
  simp only [evaluateFrom, h, bind, Except.bind]

/-- A session that is missing is reported, or the model, where that is missing too. -/
theorem evaluateFrom_of_session {fault : Fault} (h : e.session = .error fault) :
    e.evaluateFrom base clock query = .error fault := by
  cases hmodel : e.model with
  | error reason =>
      unfold Endpoint.session at h
      split at h
      · cases h
      · rw [hmodel] at h
        cases h
        exact evaluateFrom_of_model hmodel
  | ok model => simp only [evaluateFrom, hmodel, h, bind, Except.bind]

theorem evaluateFrom_of_evaluation {session : Session} {fault : Fault}
    (hsession : e.session = .ok session) (h : e.evaluation clock = .error fault) :
    e.evaluateFrom base clock query = .error fault := by
  cases hmodel : e.model with
  | error reason =>
      simp only [evaluation, hmodel, bind, Except.bind] at h
      cases h
      exact evaluateFrom_of_model hmodel
  | ok model => simp only [evaluateFrom, hmodel, hsession, h, bind, Except.bind]

/-- Operators that are missing are reported once the model and the session are there. -/
theorem evaluateFrom_of_registry {model : Entity} {session : Session} {fault : Fault}
    (hmodel : e.model = .ok model) (hsession : e.session = .ok session)
    (hregistry : e.config.registry = .error fault) :
    e.evaluateFrom base clock query = .error fault := by
  apply evaluateFrom_of_evaluation hsession
  simp only [evaluation, hmodel, hregistry, bind, Except.bind]

/-- An endpoint that has all it needs leaves the query to its evaluation. -/
theorem evaluateFrom_eq {session : Session} {evaluation : Evaluation}
    (hsession : e.session = .ok session) (hevaluation : e.evaluation clock = .ok evaluation) :
    e.evaluateFrom base clock query =
      evaluation.evaluate (base session evaluation.scope.model) query := by
  simp only [evaluateFrom, bind, Except.bind, model_of_evaluation hevaluation, hsession,
    hevaluation]

theorem evaluate_eq {session : Session} {evaluation : Evaluation}
    (hsession : e.session = .ok session) (hevaluation : e.evaluation clock = .ok evaluation) :
    e.evaluate clock query =
      evaluation.evaluate (Select.allOf evaluation.scope.model.table) query :=
  evaluateFrom_eq hsession hevaluation

/-- A query that evaluates at an endpoint evaluates there with all that the endpoint needs. -/
theorem evaluation_of_evaluate {select : Select} (h : e.evaluate clock query = .ok select) :
    ∃ session evaluation, e.session = .ok session ∧ e.evaluation clock = .ok evaluation ∧
      evaluation.evaluate (Select.allOf evaluation.scope.model.table) query = .ok select := by
  have h' := h
  simp only [Endpoint.evaluate, evaluateFrom, bind, Except.bind] at h
  split at h
  · cases h
  split at h
  · cases h
  rename_i session hsession
  split at h
  · cases h
  rename_i evaluation hevaluation
  rw [evaluate_eq hsession hevaluation] at h'
  exact ⟨session, evaluation, hsession, hevaluation, h'⟩

/--
**Evaluating a query yields the statement that is put together without state.**

The two agree on every query of every endpoint, the queries without a statement
included: evaluating succeeds if and only if the reference is defined, and then the
statement has one join for each used path in the order of first use, numbered by its
place, a condition that mirrors the filter, and the orders as listed.
-/
theorem toOption_evaluate (e : Endpoint) (clock : DateTime) (query : Query) :
    (e.evaluate clock query).toOption = e.statement? clock query := by
  unfold statement?
  cases hrun : e.evaluate clock query with
  | ok select =>
      obtain ⟨session, evaluation, hsession, hevaluation, hselect⟩ := evaluation_of_evaluate hrun
      rw [hsession, hevaluation]
      exact (Evaluation.evaluate_ok hselect).1.symm
  | error fault =>
      cases hsession : e.session with
      | error fault' => rfl
      | ok session =>
          cases hevaluation : e.evaluation clock with
          | error fault' => rfl
          | ok evaluation =>
              rw [evaluate_eq hsession hevaluation] at hrun
              exact (Evaluation.evaluate_error hrun).symm

end Endpoint

/-! ### A library -/

namespace Library

/-- Books, each by one author. -/
def book : Entity :=
  ⟨"book", "books", [⟨"title", .string⟩, ⟨"author_id", .integer⟩],
    [.manyToOne "author" "author" "author_id" "id"]⟩

def author : Entity :=
  ⟨"author", "authors", [⟨"id", .integer⟩, ⟨"name", .string⟩], []⟩

/-- Where books are looked up by their titles and by the names of their authors. -/
def scope : Scope where
  schema := Directory.ofList [book, author]
  model := book
  bindings := Directory.ofList [⟨"author", .joined "name" ["author"]⟩, ⟨"title", .simple "title"⟩]

/-- The endpoint of the library. -/
def endpoint (dialect : Sql.Dialect) : Endpoint where
  schema := scope.schema
  config := { Configuration.empty with
    model := some book.name
    bindings := scope.bindings
    session := some ⟨dialect⟩ }
  ownSession := none

/-- What it evaluates queries with. -/
def evaluation (clock : DateTime) : Evaluation :=
  ⟨scope, Registry.builtIn, Converters.builtIn, clock⟩

/-- The moment of the queries. -/
def noon : DateTime :=
  ⟨⟨1931, 10, 8, by decide⟩, ⟨12, 0, 0, 0, by decide⟩⟩

/-- The books of an author but for those whose titles match a pattern, by author. -/
def query (name pattern : String) : Query where
  filter := some (.and (.leaf ⟨"author", none, .string name⟩)
    (.not (.leaf ⟨"title", some "like", .string pattern⟩)))
  orders := [⟨"author", .ascending⟩]

/-- The statement of such a query. -/
def select (name pattern : String) : Select where
  table := "books"
  output := .root
  joins := [⟨"books", "author_id", "authors", "authors_1", "id"⟩]
  condition := some (.and (.compare .equal ⟨"authors_1", "name"⟩ (.string name))
    (.not (.like ⟨"books", "title"⟩ pattern)))
  orders := [⟨⟨"authors_1", "name"⟩, .ascending⟩]

theorem evaluation_endpoint (dialect : Sql.Dialect) (clock : DateTime) :
    (endpoint dialect).evaluation clock = .ok (evaluation clock) := by
  cbv

theorem evaluate_endpoint (dialect : Sql.Dialect) (clock : DateTime) (name pattern : String) :
    (endpoint dialect).evaluate clock (query name pattern) = .ok (select name pattern) := by
  cbv

end Library

end FilterSelect
