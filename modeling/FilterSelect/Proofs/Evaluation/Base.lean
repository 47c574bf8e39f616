/-
Base statements of a host's own.

A session starts from all rows of the root table, and a host may start from less: from a
statement that is joined, restricted or ordered already.  An evaluation never looks at what
it starts from.  It numbers its joins by those that it made itself, it adds to the end of
the joins and of the orders, and it adds its condition to the one that is there.  So what
it makes of any base is what it makes of all rows, put onto the base (`Select.extend`).

A fault is then the same from every base, and where there is none, everything that is shown
of the statement made of all rows can be read off the one made of the base.
-/
import FilterSelect.Proofs.Evaluation.Reference

namespace FilterSelect

/-- The base with the joins, the condition and the orders of a statement put onto it. -/
def Select.extend (base made : Select) : Select :=
  { made.condition.elim base base.restrict with
    joins := base.joins ++ made.joins
    orders := base.orders ++ made.orders }

/-- The draft of what is put onto a base, put onto it. -/
def Draft.onto (draft : Draft) (base : Select) : Draft :=
  { draft with select := base.extend draft.select }

@[simp] theorem Draft.onto_joined (draft : Draft) (base : Select) :
    (draft.onto base).joined = draft.joined :=
  rfl

variable (base : Select) {draft : Draft}

namespace Select

/-- All rows of a table add nothing to a base. -/
theorem extend_allOf (table : String) : base.extend (allOf table) = base := by
  simp [extend, allOf]

theorem extend_joins (made : Select) (joins : List Join) :
    base.extend { made with joins := made.joins ++ joins } =
      { base.extend made with joins := (base.extend made).joins ++ joins } := by
  simp [extend]

theorem extend_orders (made : Select) (orders : List Order) :
    base.extend { made with orders := made.orders ++ orders } =
      { base.extend made with orders := (base.extend made).orders ++ orders } := by
  simp [extend]

/-- The one condition of a statement joins that of the base. -/
theorem extend_restrict {made : Select} (h : made.condition = none) (condition : Condition) :
    base.extend (made.restrict condition) = (base.extend made).restrict condition := by
  simp [extend, restrict, h]

end Select

/-! ### Drafts

What resolving a name adds to a draft is found in the list of what was joined, which is the
same with a base beneath the draft as without one.
-/

namespace Draft

theorem start_onto (table : String) : (start (.allOf table)).onto base = start base := by
  rw [onto, start, Select.extend_allOf]
  rfl

theorem commit_onto (resolution : Resolution) :
    (draft.onto base).commit resolution = (draft.commit resolution).onto base := by
  rw [onto, onto, commit, commit, Select.extend_joins]

theorem apply_onto (scope : Scope) (name : String) :
    (draft.onto base).apply scope name =
      (draft.apply scope name).map (Prod.map id (Draft.onto · base)) := by
  unfold apply
  cases h : scope.resolve draft.joined name with
  | error fault => simp only [onto_joined, h, Except.map]
  | ok resolution =>
      simp only [onto_joined, commit_onto, h]
      rfl

end Draft

/-! ### The steps of an evaluation -/

namespace Evaluation

variable (e : Evaluation)

theorem evaluateLeaf_onto (l : Leaf) :
    e.evaluateLeaf (draft.onto base) l =
      (e.evaluateLeaf draft l).map (Prod.map id (Draft.onto · base)) := by
  unfold evaluateLeaf
  cases e.operatorOf l with
  | error fault => rfl
  | ok op =>
      cases h : e.scope.resolve draft.joined l.name with
      | error fault => simp only [Draft.onto_joined, h, Except.map]
      | ok resolution =>
          simp only [Draft.onto_joined, Draft.commit_onto, h]
          cases op.apply (some e.converters) e.clock resolution.field l.value <;> rfl

theorem inTurn_onto {combine : Condition → Condition → Condition}
    {first : Except Fault (Condition × Draft)} {second : Draft → Except Fault (Condition × Draft)}
    (h : ∀ draft, second (draft.onto base) =
      (second draft).map (Prod.map id (Draft.onto · base))) :
    inTurn combine (first.map (Prod.map id (Draft.onto · base))) second =
      (inTurn combine first second).map (Prod.map id (Draft.onto · base)) := by
  cases first with
  | error fault => rfl
  | ok built =>
      obtain ⟨x, draft⟩ := built
      simp only [inTurn, Except.map, Prod.map, h]
      cases second draft <;> rfl

theorem evaluateTree_onto (tree : FilterTree) :
    e.evaluateTree (draft.onto base) tree =
      (e.evaluateTree draft tree).map (Prod.map id (Draft.onto · base)) := by
  induction tree generalizing draft with
  | leaf l => exact evaluateLeaf_onto base e l
  | not inner ih =>
      rw [evaluateTree, evaluateTree, ih]
      cases e.evaluateTree draft inner <;> rfl
  | and left right ihleft ihright =>
      rw [evaluateTree, evaluateTree, ihleft]
      exact inTurn_onto base fun draft => ihright
  | or left right ihleft ihright =>
      rw [evaluateTree, evaluateTree, ihleft]
      exact inTurn_onto base fun draft => ihright
  | binding operator left right => rfl

/-- A tree adds nothing but joins to a draft, so a draft without a condition stays so. -/
theorem condition_of_evaluateTree {plan : List PendingJoin} {tree : FilterTree}
    {condition : Condition} {draft' : Draft} (h : draft.Follows e.scope plan)
    (hok : e.evaluateTree draft tree = .ok (condition, draft')) :
    draft'.select.condition = draft.select.condition := by
  obtain ⟨-, hgains⟩ := evaluateTree_builds h (List.prefix_refl _)
  obtain ⟨plan', hgain⟩ := hgains condition draft' hok
  rw [hgain.frame]

theorem applyFilter_onto {plan : List PendingJoin} (h : draft.Follows e.scope plan)
    (hcondition : draft.select.condition = none) (filter : Option FilterTree) :
    e.applyFilter (draft.onto base) filter =
      (e.applyFilter draft filter).map (Draft.onto · base) := by
  cases filter with
  | none => rfl
  | some tree =>
      rw [applyFilter, applyFilter, evaluateTree_onto]
      cases hrun : e.evaluateTree draft tree with
      | error fault => rfl
      | ok built =>
          obtain ⟨condition, draft'⟩ := built
          have hnone := (e.condition_of_evaluateTree h hrun).trans hcondition
          simp only [Except.map, Draft.onto, Prod.map, id, base.extend_restrict hnone]

theorem applyOrder_onto (order : OrderSpec) :
    e.applyOrder (draft.onto base) order =
      (e.applyOrder draft order).map (Draft.onto · base) := by
  rw [applyOrder, applyOrder, Draft.apply_onto]
  cases draft.apply e.scope order.name with
  | error fault => rfl
  | ok applied =>
      obtain ⟨field, draft'⟩ := applied
      simp only [Except.map, Prod.map, id, Draft.onto, Select.extend_orders]

theorem applyOrders_onto (orders : List OrderSpec) :
    e.applyOrders (draft.onto base) orders =
      (e.applyOrders draft orders).map (Draft.onto · base) := by
  induction orders generalizing draft with
  | nil => rfl
  | cons order rest ih =>
      rw [applyOrders, applyOrders, applyOrder_onto]
      cases e.applyOrder draft order with
      | error fault => rfl
      | ok draft' => exact ih

/-- What an evaluation makes of a base is what it makes of all rows, put onto the base. -/
theorem evaluate_extend (query : Query) :
    e.evaluate base query =
      (e.evaluate (.allOf e.scope.model.table) query).map base.extend := by
  have hstart := Draft.follows_allOf e.scope e.scope.model.table
  unfold evaluate
  rw [← Draft.start_onto base e.scope.model.table, applyFilter_onto base e hstart rfl]
  cases e.checkQuery query with
  | error fault => rfl
  | ok _ =>
      cases e.applyFilter (.start (.allOf e.scope.model.table)) query.filter with
      | error fault => rfl
      | ok filtered =>
          simp only [bind, Except.bind, Except.map, applyOrders_onto]
          cases e.applyOrders filtered query.orders <;> rfl

end Evaluation

/-! ### Endpoints -/

namespace Endpoint

/--
**From a base of the host's own, a query is given the statement that it has anyway, put onto
the base.**

This holds of every endpoint and every base.  So the base decides nothing about which
queries are refused, and for what.
-/
theorem evaluateFrom_extend (e : Endpoint) (base : Session → Entity → Select) (clock : DateTime)
    (query : Query) :
    e.evaluateFrom base clock query = do
      let made ← e.evaluate clock query
      let model ← e.model
      let session ← e.session
      return (base session model).extend made := by
  cases hevaluation : e.evaluation clock with
  | error fault =>
      unfold evaluate evaluateFrom
      cases e.model with
      | error reason => rfl
      | ok model => cases e.session <;> simp only [hevaluation, bind, Except.bind]
  | ok evaluation =>
      have hmodel := model_of_evaluation hevaluation
      cases hsession : e.session with
      | error fault =>
          rw [evaluate, evaluateFrom_of_session hsession, evaluateFrom_of_session hsession]
          rfl
      | ok session =>
          rw [evaluateFrom_eq hsession hevaluation, evaluate_eq hsession hevaluation,
            evaluation.evaluate_extend, hmodel]
          cases evaluation.evaluate (.allOf evaluation.scope.model.table) query <;> rfl

end Endpoint

end FilterSelect
