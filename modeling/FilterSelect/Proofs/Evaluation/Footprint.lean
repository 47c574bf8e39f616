/-
What an evaluation depends on.

A query names some bindings, and their paths name relationships, each of which leads to an
entity that the schema lists or does not.  These entries and entities are all that an
evaluation looks at: `Scope.targets` lists the entities that a path asks for, and `AgreeOn`
says of two scopes that they have the same entries and entities wherever a query asks for
one, so also none in the same places.  Evaluating the query comes to the same in both.

The schema is asked in two ways.  A walk that follows a relationship asks for its target, and
a walk along a path that was joined before asks for the entity listed there.  The second
question is one that was asked before: a walk stands where the schema leads
(`Position.Sound`), in either scope, so what is listed for a path is what its last segment
leads to (`find?_of_findJoined?`).
-/
import FilterSelect.Proofs.Evaluation.Faults

namespace FilterSelect

namespace Scope

/-! ### What a path asks for -/

/-- The names of the entities that are looked up along a path. -/
def targets (scope : Scope) : Entity → List String → List String
  | _, [] => []
  | entity, segment :: rest =>
    match entity.relationship? segment with
    | none => []
    | some relationship =>
      relationship.target ::
        match scope.schema.find? relationship.target with
        | none => []
        | some target => scope.targets target rest

/-- The same entries and entities, wherever some names ask for one. -/
structure AgreeOn (scope scope' : Scope) (names : List String) : Prop where
  model : scope'.model = scope.model
  bindings : ∀ name ∈ names, scope'.bindings.find? name = scope.bindings.find? name
  schema : ∀ name ∈ names, ∀ target ∈ scope.targets scope.model (scope.pathOf name),
    scope'.schema.find? target = scope.schema.find? target

variable {scope scope' : Scope} {plan plan' : List PendingJoin}

theorem AgreeOn.mono {names more : List String} (h : scope.AgreeOn scope' more)
    (hsubset : names ⊆ more) : scope.AgreeOn scope' names where
  model := h.model
  bindings := fun name hname => h.bindings name (hsubset hname)
  schema := fun name hname => h.schema name (hsubset hname)

theorem follow_congr {entity : Entity} {segment : String} {rest : List String}
    (h : ∀ target ∈ scope.targets entity (segment :: rest),
      scope'.schema.find? target = scope.schema.find? target) :
    scope'.follow entity segment = scope.follow entity segment := by
  unfold follow
  cases hrelationship : entity.relationship? segment with
  | none => rfl
  | some relationship =>
      have hmem : relationship.target ∈ scope.targets entity (segment :: rest) := by
        rw [targets, hrelationship]
        exact List.mem_cons_self
      simp only [h _ hmem]

private theorem mem_targets_of_follow {entity target : Entity} {segment : String}
    {rest : List String}
    {relationship : Relationship}
    (hfollow : scope.follow entity segment = .ok (relationship, target))
    {name : String} (hname : name ∈ scope.targets target rest) :
    name ∈ scope.targets entity (segment :: rest) := by
  unfold follow at hfollow
  split at hfollow
  · cases hfollow
  · rename_i hrelationship
    split at hfollow
    · cases hfollow
    · rename_i hfind
      cases hfollow
      rw [targets, hrelationship]
      simp only [hfind]
      exact List.mem_cons_of_mem _ hname

/-! ### Walks in two scopes

Two walks that stand in the same place take the same step if the segment leads to the same in
both scopes.  Where the longer path was joined before, this is so because of what was asked for
then.
-/

variable {here : Position} {joined : List JoinedEntity}

/-- The entity listed for a path is the one that the last segment of the path leads to. -/
theorem find?_of_findJoined? {segment : String} {relationship : Relationship} {target : Entity}
    {found : JoinedEntity} (h : here.Sound scope plan)
    (hfollow : scope.follow here.entity segment = .ok (relationship, target))
    (hfound : findJoined? (plan.map PendingJoin.joined) (here.path ++ [segment]) = some found) :
    scope.schema.find? found.entity = some target := by
  rw [findJoined?_map, Option.map_eq_some_iff] at hfound
  obtain ⟨p, hfind, rfl⟩ := hfound
  obtain ⟨-, -, entity, hentity, hok⟩ := reach_of_find? h hfind
  rw [reach_concat segment (h.planned.reach_eq h.stands), hfollow] at hok
  cases hok
  exact hentity

private theorem step_congr {segment : String} (h : here.Sound scope plan)
    (h' : here.Sound scope' plan')
    (hplan : joined = plan.map PendingJoin.joined) (hplan' : joined = plan'.map PendingJoin.joined)
    (hfollow : scope'.follow here.entity segment = scope.follow here.entity segment) :
    scope'.step joined here segment = scope.step joined here segment := by
  cases hlink : scope.follow here.entity segment with
  | error fault =>
      rw [hlink] at hfollow
      rw [hplan, step_error h hlink, ← hplan, hplan', step_error h' hfollow]
  | ok link =>
      obtain ⟨relationship, target⟩ := link
      rw [hlink] at hfollow
      unfold step
      simp only [hlink, hfollow]
      cases hfound : findJoined? joined (here.path ++ [segment]) with
      | none => rfl
      | some found =>
          simp only [find?_of_findJoined? h hlink (hplan ▸ hfound),
            find?_of_findJoined? h' hfollow (hplan' ▸ hfound)]

theorem walk_congr {rest : List String} (h : here.Sound scope plan) (h' : here.Sound scope' plan')
    (hplan : joined = plan.map PendingJoin.joined) (hplan' : joined = plan'.map PendingJoin.joined)
    (htargets : ∀ target ∈ scope.targets here.entity rest,
      scope'.schema.find? target = scope.schema.find? target) :
    scope'.walk joined here rest = scope.walk joined here rest := by
  induction rest generalizing here with
  | nil => rfl
  | cons segment rest ih =>
      have hfollow := follow_congr htargets
      rw [walk, walk, step_congr h h' hplan hplan' hfollow]
      cases hlink : scope.follow here.entity segment with
      | error fault => rw [hplan, step_error h hlink]
      | ok link =>
          obtain ⟨relationship, target⟩ := link
          obtain ⟨next, hstep, hnext, -, hentity, -⟩ := step_ok h hlink
          obtain ⟨next', hstep', hnext', -⟩ := step_ok h' (hfollow.trans hlink)
          rw [← hplan] at hstep
          rw [← hplan', step_congr h h' hplan hplan' hfollow, hstep] at hstep'
          cases hstep'
          simp only [hstep]
          refine ih hnext hnext' fun name hname => htargets name ?_
          exact mem_targets_of_follow hlink (hentity ▸ hname)

private theorem entry_congr {name : String} (h : scope.AgreeOn scope' [name]) :
    scope'.entry name = scope.entry name := by
  rw [entry, entry, h.bindings name (List.mem_singleton_self name)]

theorem resolve_congr {name : String} (hagree : scope.AgreeOn scope' [name])
    (h : scope.Planned plan) (h' : scope'.Planned plan')
    (hplan : joined = plan.map PendingJoin.joined)
    (hplan' : joined = plan'.map PendingJoin.joined) :
    scope'.resolve joined name = scope.resolve joined name := by
  unfold resolve
  rw [entry_congr hagree]
  cases hentry : scope.entry name with
  | error fault => rfl
  | ok entry =>
      have hroot : scope'.root = scope.root := by rw [root, root, hagree.model]
      have hsound' := sound_root h'
      rw [hroot] at hsound' ⊢
      have hpath : scope.pathOf name = entry.path := by rw [pathOf, hentry]
      have htargets := hagree.schema name (List.mem_singleton_self name)
      rw [hpath] at htargets
      simp only [walk_congr (sound_root h) hsound' hplan hplan' htargets]

end Scope

namespace Evaluation

variable {e : Evaluation} {scope' : Scope} {draft : Draft}

/-! ### Evaluations in two scopes

One draft is handed on from step to step.  It came about in both scopes, so it follows a plan
in each, and what a step leaves in both, the next step can start from in both.
-/

/-- The evaluation in another scope. -/
def inScope (e : Evaluation) (scope : Scope) : Evaluation :=
  { e with scope }

/-- A draft that came about in either of two scopes. -/
structure Shared (scope scope' : Scope) (draft : Draft) : Prop where
  left : ∃ plan, draft.Follows scope plan
  right : ∃ plan, draft.Follows scope' plan

theorem Shared.start (scope scope' : Scope) (table : String) :
    Shared scope scope' (Draft.start (.allOf table)) :=
  ⟨⟨[], Draft.follows_allOf scope table⟩, ⟨[], Draft.follows_allOf scope' table⟩⟩

private theorem resolve_shared {name : String} (hagree : e.scope.AgreeOn scope' [name])
    (h : Shared e.scope scope' draft) :
    scope'.resolve draft.joined name = e.scope.resolve draft.joined name := by
  obtain ⟨⟨plan, hleft⟩, plan', hright⟩ := h
  exact Scope.resolve_congr hagree hleft.planned hright.planned hleft.joined hright.joined

/-- Whether operators are known is a question to the registry alone. -/
theorem check_congr {e' : Evaluation} (h : e'.registry = e.registry) (tree : FilterTree) :
    e'.check tree = e.check tree := by
  have hop : ∀ l, e'.operatorOf l = e.operatorOf l := fun l => by rw [operatorOf, operatorOf, h]
  induction tree with
  | leaf l => rw [check, check, hop]
  | not inner ih => exact ih
  | and left right ihleft ihright => rw [check, check, ihleft, ihright]
  | or left right ihleft ihright => rw [check, check, ihleft, ihright]
  | binding operator left right => rfl

theorem checkQuery_congr {e' : Evaluation} (h : e'.registry = e.registry) (query : Query) :
    e'.checkQuery query = e.checkQuery query := by
  rw [checkQuery, checkQuery]
  cases query.filter with
  | none => rfl
  | some tree => exact check_congr h tree

private theorem evaluateLeaf_inScope {l : Leaf} (hagree : e.scope.AgreeOn scope' [l.name])
    (h : Shared e.scope scope' draft) :
    (e.inScope scope').evaluateLeaf draft l = e.evaluateLeaf draft l := by
  have hresolve := resolve_shared hagree h
  simp only [evaluateLeaf, inScope, operatorOf, hresolve]

theorem Shared.after_tree {tree : FilterTree} {condition : Condition} {next : Draft}
    (h : Shared e.scope scope' draft)
    (hsame : (e.inScope scope').evaluateTree draft tree = e.evaluateTree draft tree)
    (hrun : e.evaluateTree draft tree = .ok (condition, next)) : Shared e.scope scope' next := by
  obtain ⟨⟨plan, hleft⟩, plan', hright⟩ := h
  refine ⟨follows_of_evaluateTree hleft hrun, ?_⟩
  have hright' : draft.Follows (e.inScope scope').scope plan' := hright
  exact follows_of_evaluateTree hright' (hsame.trans hrun)

/-- Two runs in turn are the same if each is, the second one in drafts that the first leaves. -/
theorem inTurn_congr {combine : Condition → Condition → Condition}
    {first first' : Except Fault (Condition × Draft)}
    {second second' : Draft → Except Fault (Condition × Draft)} (hfirst : first' = first)
    (hsecond : ∀ condition next, first = .ok (condition, next) → second' next = second next) :
    inTurn combine first' second' = inTurn combine first second := by
  subst hfirst
  unfold inTurn
  cases first' with
  | error fault => rfl
  | ok built =>
      obtain ⟨condition, next⟩ := built
      simp only [hsecond condition next rfl]

theorem evaluateTree_inScope {tree : FilterTree}
    (hagree : e.scope.AgreeOn scope' (tree.leaves.map Leaf.name))
    (h : Shared e.scope scope' draft) :
    (e.inScope scope').evaluateTree draft tree = e.evaluateTree draft tree := by
  induction tree generalizing draft with
  | leaf l => exact evaluateLeaf_inScope hagree h
  | not inner ih => rw [evaluateTree, evaluateTree, ih hagree h]
  | and left right ihleft ihright =>
      rw [FilterTree.leaves, List.map_append] at hagree
      have hleft := ihleft (hagree.mono (List.subset_append_left _ _)) h
      refine inTurn_congr hleft fun condition next hrun => ?_
      exact ihright (hagree.mono (List.subset_append_right _ _)) (h.after_tree hleft hrun)
  | or left right ihleft ihright =>
      rw [FilterTree.leaves, List.map_append] at hagree
      have hleft := ihleft (hagree.mono (List.subset_append_left _ _)) h
      refine inTurn_congr hleft fun condition next hrun => ?_
      exact ihright (hagree.mono (List.subset_append_right _ _)) (h.after_tree hleft hrun)
  | binding operator left right => rfl

private theorem applyFilter_inScope {filter : Option FilterTree}
    (hagree : e.scope.AgreeOn scope' (filterNames filter)) (h : Shared e.scope scope' draft) :
    (e.inScope scope').applyFilter draft filter = e.applyFilter draft filter := by
  cases filter with
  | none => rfl
  | some tree => rw [applyFilter, applyFilter, evaluateTree_inScope hagree h]

theorem Shared.after_filter {filter : Option FilterTree} {next : Draft}
    (hagree : e.scope.AgreeOn scope' (filterNames filter)) (h : Shared e.scope scope' draft)
    (hrun : e.applyFilter draft filter = .ok next) : Shared e.scope scope' next := by
  cases filter with
  | none =>
      cases hrun
      exact h
  | some tree =>
      have hsame := evaluateTree_inScope hagree h
      rw [applyFilter] at hrun
      split at hrun
      · cases hrun
      · rename_i condition built hbuilt
        cases hrun
        obtain ⟨⟨plan, hleft⟩, plan', hright⟩ := h.after_tree hsame hbuilt
        exact ⟨⟨plan, hleft.of_joins_eq rfl rfl⟩, plan', hright.of_joins_eq rfl rfl⟩

private theorem applyOrder_inScope {order : OrderSpec}
    (hagree : e.scope.AgreeOn scope' [order.name])
    (h : Shared e.scope scope' draft) :
    (e.inScope scope').applyOrder draft order = e.applyOrder draft order := by
  have hresolve := resolve_shared hagree h
  simp only [applyOrder, Draft.apply, inScope, hresolve]

theorem Shared.after_order {order : OrderSpec} {next : Draft}
    (hagree : e.scope.AgreeOn scope' [order.name]) (h : Shared e.scope scope' draft)
    (hrun : e.applyOrder draft order = .ok next) : Shared e.scope scope' next := by
  have hrun' := (applyOrder_inScope hagree h).trans hrun
  obtain ⟨⟨plan, hleft⟩, plan', hright⟩ := h
  have hright' : draft.Follows (e.inScope scope').scope plan' := hright
  obtain ⟨_, _, -, hgain⟩ := applyOrder_ok hleft (List.prefix_refl _) hrun
  obtain ⟨_, _, -, hgain'⟩ := applyOrder_ok hright' (List.prefix_refl _) hrun'
  exact ⟨⟨_, hgain.follows⟩, _, hgain'.follows⟩

private theorem applyOrders_inScope {orders : List OrderSpec}
    (hagree : e.scope.AgreeOn scope' (orders.map OrderSpec.name))
    (h : Shared e.scope scope' draft) :
    (e.inScope scope').applyOrders draft orders = e.applyOrders draft orders := by
  induction orders generalizing draft with
  | nil => rfl
  | cons order rest ih =>
      rw [List.map_cons] at hagree
      have hfirst : e.scope.AgreeOn scope' [order.name] := hagree.mono (by simp)
      rw [applyOrders, applyOrders, applyOrder_inScope hfirst h]
      cases hrun : e.applyOrder draft order with
      | error fault => rfl
      | ok next => exact ih (hagree.mono (List.subset_cons_self _ _)) (h.after_order hfirst hrun)

theorem evaluate_inScope {query : Query} (hagree : e.scope.AgreeOn scope' query.names) :
    (e.inScope scope').evaluate (.allOf e.scope.model.table) query =
      e.evaluate (.allOf e.scope.model.table) query := by
  rw [names_eq] at hagree
  have hfilter := hagree.mono (List.subset_append_left _ _)
  have horders := hagree.mono (List.subset_append_right _ _)
  have hstart := Shared.start e.scope scope' e.scope.model.table
  have hregistry : (e.inScope scope').registry = e.registry := rfl
  simp only [evaluate, checkQuery_congr hregistry, applyFilter_inScope hfilter hstart, bind,
    Except.bind]
  cases e.checkQuery query with
  | error fault => rfl
  | ok _ =>
      cases hrun : e.applyFilter (Draft.start (.allOf e.scope.model.table)) query.filter with
      | error fault => rfl
      | ok filtered => simp only [applyOrders_inScope horders (hstart.after_filter hfilter hrun)]

end Evaluation

/-! ### Endpoints

The names of the entities are those of the first endpoint's schema.  The other schema leads to
no further ones, since it has the same entities there.
-/

namespace Endpoint

/-- The scope of an endpoint with this root entity. -/
def scope (e : Endpoint) (model : Entity) : Scope :=
  ⟨e.schema, model, e.config.bindings⟩

/-- The names of the entities that evaluating a query looks up. -/
def lookups (e : Endpoint) (query : Query) : List String :=
  match e.config.model with
  | none => []
  | some name =>
    name ::
      match e.schema.find? name with
      | none => []
      | some model =>
        query.names.flatMap fun n => (e.scope model).targets model ((e.scope model).pathOf n)

/-- Endpoints that differ at most in entries and entities that a query does not ask for. -/
structure AgreeOn (e e' : Endpoint) (query : Query) : Prop where
  ownSession : e'.ownSession = e.ownSession
  config : e'.config = { e.config with bindings := e'.config.bindings }
  bindings : ∀ name ∈ query.names, e'.config.bindings.find? name = e.config.bindings.find? name
  schema : ∀ name ∈ e.lookups query, e'.schema.find? name = e.schema.find? name

variable {e e' : Endpoint} {query : Query}

theorem AgreeOn.model (h : e.AgreeOn e' query) : e'.model = e.model := by
  have hname : e'.config.model = e.config.model := by rw [h.config]
  have hschema := h.schema
  unfold lookups at hschema
  unfold Endpoint.model
  rw [hname]
  cases hmodel : e.config.model with
  | none => rfl
  | some name =>
      simp only [hmodel] at hschema
      simp only [hschema name List.mem_cons_self]

theorem AgreeOn.session (h : e.AgreeOn e' query) : e'.session = e.session := by
  have hsession : e'.config.session = e.config.session := by rw [h.config]
  rw [Endpoint.session, Endpoint.session, h.ownSession, hsession, h.model]

theorem AgreeOn.scope (h : e.AgreeOn e' query) {model : Entity} (hmodel : e.model = .ok model) :
    (e.scope model).AgreeOn (e'.scope model) query.names := by
  refine ⟨rfl, h.bindings, ?_⟩
  intro name hname target htarget
  apply h.schema
  unfold Endpoint.model at hmodel
  unfold lookups
  cases hconfigured : e.config.model with
  | none => simp [hconfigured] at hmodel
  | some configured =>
      cases hfind : e.schema.find? configured with
      | none => simp [hconfigured, hfind] at hmodel
      | some found =>
          simp only [hconfigured, hfind, Except.ok.injEq] at hmodel
          subst hmodel
          simp only [hfind]
          exact List.mem_cons_of_mem _ (List.mem_flatMap.mpr ⟨name, hname, htarget⟩)

/--
**An evaluation depends on nothing but what its query names.**

Two endpoints may differ in their bindings and in their schemas.  If they bind the names of a
query to the same entries, and their schemas have the same entities, or none, under the name
of the model and under every name that a relationship on one of the paths leads to, the query
comes to the same statement or to the same fault.
-/
theorem evaluate_congr (h : e.AgreeOn e' query) (clock : DateTime) :
    e'.evaluate clock query = e.evaluate clock query := by
  have hsession := h.session
  have hregistry : e'.config.registry = e.config.registry := by rw [h.config]; rfl
  have hconverters : e'.config.converters = e.config.converters := by rw [h.config]
  cases hown : e.session with
  | error fault =>
      rw [evaluate, evaluate, evaluateFrom_of_session hown,
        evaluateFrom_of_session (hsession.trans hown)]
  | ok session =>
      cases hmodel : e.model with
      | error fault =>
          rw [evaluate, evaluate, evaluateFrom_of_model hmodel,
            evaluateFrom_of_model (h.model.trans hmodel)]
      | ok model =>
          cases hfound : e.config.registry with
          | error fault =>
              rw [evaluate, evaluate, evaluateFrom_of_registry hmodel hown hfound,
                evaluateFrom_of_registry (h.model.trans hmodel) (hsession.trans hown)
                  (hregistry.trans hfound)]
          | ok registry =>
              have hevaluation' : e'.evaluation clock = _ :=
                evaluation_eq (h.model.trans hmodel) (hregistry.trans hfound)
              rw [hconverters] at hevaluation'
              rw [evaluate_eq hown (evaluation_eq hmodel hfound),
                evaluate_eq (hsession.trans hown) hevaluation']
              have hscope : (e.scope model).AgreeOn (e'.scope model) query.names := h.scope hmodel
              exact @Evaluation.evaluate_inScope
                ⟨e.scope model, registry, e.config.converters.getD Converters.builtIn, clock⟩ _ _
                hscope

end Endpoint

/-! ### A library that grows -/

namespace Library

/-- The library with publishers, and with the names of books for their titles. -/
def grown : Endpoint where
  schema := scope.schema.insert ⟨"publisher", "publishers", [⟨"id", .integer⟩], []⟩
  config := { (endpoint .sqlite).config with
    bindings := scope.bindings.insert ⟨"title", .simple "name"⟩ }
  ownSession := none

/-- The books of an author, by author. -/
def byAuthor (name : String) : Query where
  filter := some (.leaf ⟨"author", none, .string name⟩)
  orders := [⟨"author", .ascending⟩]

/-- The books of an author are not affected. -/
theorem evaluate_grown :
    (endpoint .sqlite).AgreeOn grown (byAuthor "anonymous") ∧
      grown.evaluate noon (byAuthor "anonymous") =
        (endpoint .sqlite).evaluate noon (byAuthor "anonymous") ∧
      faultOf? (grown.evaluate noon (byAuthor "anonymous")) = none := by
  have hagree : (endpoint .sqlite).AgreeOn grown (byAuthor "anonymous") := by
    refine ⟨rfl, rfl, ?_, ?_⟩ <;> decide +kernel
  refine ⟨hagree, Endpoint.evaluate_congr hagree noon, ?_⟩
  cbv

end Library

end FilterSelect
