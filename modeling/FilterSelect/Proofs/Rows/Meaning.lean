/-
The rows that a query's statement returns.

A statement is made for its rows, and this is what they are: a row of the root table
is returned once for each way to choose a related row for every used path such that
the filter holds.  The joins make the related choices, as is shown elsewhere.  What
is added here is that the condition of the statement comes to what the filter comes
to.  A leaf reads the right row because its path is one of the used paths, so that
its qualifier is the alias of the join that was made for the path.
-/
import FilterSelect.Proofs.Rows.Joins

namespace FilterSelect

variable {Cell : Type}

/-! ### The qualifier of a name -/

namespace Scope

variable {scope : Scope} {plan : List PendingJoin} {db : Database Cell} {choice : Choice Cell}

/-- The qualifier of a path has the row that is chosen for the path. -/
theorem Planned.lookup_qualifier? {path : List String} {qualifier : String}
    (h : scope.Planned plan) (hroot : scope.RootApart plan)
    (hpath : path = [] ∨ path ∈ pathsOf plan)
    (hqualifier : scope.qualifier? (pathsOf plan) path = some qualifier) :
    (scope.environment plan choice).lookup qualifier = some (choice path) := by
  obtain ⟨entity, hs⟩ := h.stands_qualifier? hpath hqualifier
  exact h.lookup_eq hroot hs choice

end Scope

/-! ### Conditions

A condition has the shape of the filter, so what is left to compare are the leaves, each of
which reads one column.
-/

theorem FilterTree.truth_mirror? {db : Database Cell} {env : Environment Cell}
    {leaf : Leaf → Option Condition} {value : Leaf → Truth} {tree : FilterTree}
    {condition : Condition}
    (hleaf : ∀ l ∈ tree.leaves, ∀ c, leaf l = some c → c.truth db env = value l)
    (h : tree.mirror? leaf = some condition) : condition.truth db env = tree.truth value := by
  induction tree generalizing condition with
  | leaf l => exact hleaf l (by simp [FilterTree.leaves]) condition h
  | not inner ih =>
      obtain ⟨x, hinner, rfl⟩ := FilterTree.mirror?_not h
      rw [Condition.truth, ih hleaf hinner, FilterTree.truth]
  | and left right ihleft ihright =>
      obtain ⟨first, second, hfirst, hsecond, rfl⟩ := FilterTree.mirror?_and h
      rw [Condition.truth, FilterTree.truth,
        ihleft (fun l hl => hleaf l (List.mem_append_left _ hl)) hfirst,
        ihright (fun l hl => hleaf l (List.mem_append_right _ hl)) hsecond]
  | or left right ihleft ihright =>
      obtain ⟨first, second, hfirst, hsecond, rfl⟩ := FilterTree.mirror?_or h
      rw [Condition.truth, FilterTree.truth,
        ihleft (fun l hl => hleaf l (List.mem_append_left _ hl)) hfirst,
        ihright (fun l hl => hleaf l (List.mem_append_right _ hl)) hsecond]
  | binding operator left right => cases h

namespace Evaluation

variable {e : Evaluation} {plan : List PendingJoin} {db : Database Cell} {query : Query}

private theorem truth_leafCondition? {names : List String} {l : Leaf} {condition : Condition}
    (h : e.scope.Planned plan) (hroot : e.scope.RootApart plan)
    (hplan : pathsOf plan = e.scope.usedPaths names) (hl : l.name ∈ names)
    (hcondition : e.leafCondition? (pathsOf plan) l = some condition) (choice : Choice Cell) :
    condition.truth db (e.scope.environment plan choice) = e.leafTruth db choice l := by
  rw [leafCondition?_eq, Option.bind_eq_some_iff] at hcondition
  obtain ⟨asked, hasked, hcondition⟩ := hcondition
  obtain ⟨qualifier, hqualifier, rfl⟩ := Option.map_eq_some_iff.mp hcondition
  obtain ⟨column, hdestination⟩ := destination_of_pathTest? hasked
  have hpath : asked.path = [] ∨ asked.path ∈ pathsOf plan := by
    by_cases hnil : asked.path = []
    · exact Or.inl hnil
    · rw [hplan]
      exact Or.inr (Scope.mem_usedPaths hl hdestination hnil)
  rw [Condition.truth_on, Database.ask, Environment.cell?,
    h.lookup_qualifier? hroot hpath hqualifier, leafTruth, hasked]
  rfl

theorem filterTruth_iff {condition : Option Condition} (h : e.scope.Planned plan)
    (hroot : e.scope.RootApart plan) (hplan : pathsOf plan = e.scope.usedPaths query.names)
    (hcondition : e.filterCondition? (pathsOf plan) query.filter = some condition)
    (choice : Choice Cell) :
    filterTruth db (e.scope.environment plan choice) condition = .holds ↔
      e.Keeps db query choice := by
  unfold Keeps
  cases hfilter : query.filter with
  | none =>
      rw [hfilter] at hcondition
      cases hcondition
      simp [filterTruth]
  | some tree =>
      rw [hfilter, filterCondition?, Option.map_eq_some_iff] at hcondition
      obtain ⟨condition', hmirror, rfl⟩ := hcondition
      have hleaf : ∀ l ∈ tree.leaves, ∀ c, e.leafCondition? (pathsOf plan) l = some c →
          c.truth db (e.scope.environment plan choice) = e.leafTruth db choice l := by
        intro l hl c hc
        refine truth_leafCondition? h hroot hplan ?_ hc choice
        rw [names_eq, hfilter]
        exact List.mem_append_left _ (List.mem_map_of_mem hl)
      rw [filterTruth, FilterTree.truth_mirror? hleaf hmirror]

/-! ### Results

The joins make of the root rows all related choices, the condition keeps some of them, and of
each choice the root's row is returned.
-/

/-- A query returns each row of the root table in as many ways as it can be related and kept. -/
theorem result_of_evaluate {select : Select}
    (h : e.evaluate (Select.allOf e.scope.model.table) query = .ok select)
    (hroot : ∀ j ∈ select.joins, j.aliasName ≠ select.table) (db : Database Cell) :
    select.result db = (db.rows select.table).bind fun root =>
      Multiset.replicate (e.ways db query root) [root] := by
  obtain ⟨plan, hplanned, hpaths, htable, houtput, hjoins, hcondition⟩ := evaluate_parts h
  have hapart : e.scope.RootApart plan := by
    intro p hp
    rw [← htable]
    exact hroot p.join (hjoins ▸ List.mem_map_of_mem hp)
  unfold Select.result
  rw [htable, houtput, hjoins, hplanned.joined_eq hapart, Multiset.filter_bind, Multiset.map_bind]
  refine Multiset.bind_congr ?_
  intro root _
  have hrow : ∀ choice ∈ e.scope.relatedChoices db (pathsOf plan) root,
      Output.root.rowsOf e.scope.model.table (e.scope.environment plan choice) = [root] := by
    intro choice hchoice
    have hchosen := Scope.root_of_mem_choices hplanned.path_ne_nil
      (Multiset.mem_of_mem_filter hchoice)
    rw [Output.rowsOf, hplanned.lookup_eq hapart .root choice, hchosen]
    rfl
  have hkept : (e.scope.relatedChoices db (pathsOf plan) root).filter
        ((fun env => filterTruth db env select.condition = .holds) ∘ e.scope.environment plan) =
      (e.scope.relatedChoices db (pathsOf plan) root).filter (e.Keeps db query) :=
    Multiset.filter_congr fun choice _ =>
      filterTruth_iff hplanned hapart hpaths hcondition choice
  rw [Multiset.filter_map, Multiset.map_map, hkept, ways, ← hpaths, ← Multiset.map_const']
  refine Multiset.map_congr rfl ?_
  intro choice hchoice
  exact hrow choice (Multiset.mem_of_mem_filter hchoice)

/-- Where every used relationship has one match, the rows of the root table are filtered. -/
theorem bind_ways_of_single {rows : Multiset (Row Cell)} (h : ∀ root ∈ rows, ∃ choice,
      e.scope.relatedChoices db (e.scope.usedPaths query.names) root = {choice}) :
    (rows.bind fun root => Multiset.replicate (e.ways db query root) [root]) =
      (rows.filter (e.Satisfies db query)).map fun root => [root] := by
  rw [Multiset.filter_eq_bind, Multiset.map_bind]
  refine Multiset.bind_congr ?_
  intro root hroot
  obtain ⟨choice, hchoice⟩ := h root hroot
  have hsatisfies : e.Satisfies db query root ↔ e.Keeps db query choice := by
    simp [Satisfies, hchoice]
  rw [ways, hchoice, Multiset.filter_singleton]
  by_cases hkeeps : e.Keeps db query choice <;> simp [hsatisfies, hkeeps]

end Evaluation

/-! ### Endpoints -/

/--
**A query returns each row of the root table once for each way to relate it.**

The statement of a query goes through joins, aliases and a condition.  What it returns
is described without any of them: a way to relate a row of the root table is a choice
of a matching row for each used path under which the filter holds.  Where every used
relationship has exactly one match there is one choice, so the rows for which the
filter holds are returned, each of them once.
-/
theorem Endpoint.result_evaluate {e : Endpoint} {clock : DateTime} {query : Query}
    {evaluation : Evaluation} {select : Select} (hevaluation : e.evaluation clock = .ok evaluation)
    (hselect : e.evaluate clock query = .ok select)
    (hroot : ∀ j ∈ select.joins, j.aliasName ≠ select.table) (db : Database Cell) :
    (select.result db = (db.rows select.table).bind fun root =>
      Multiset.replicate (evaluation.ways db query root) [root]) ∧
    (evaluation.scope.Single db (evaluation.scope.usedPaths query.names) →
      (∀ root ∈ db.rows select.table, ∃ choice, evaluation.scope.relatedChoices db
        (evaluation.scope.usedPaths query.names) root = {choice}) ∧
      select.result db =
        ((db.rows select.table).filter (evaluation.Satisfies db query)).map
          fun root => [root]) := by
  obtain ⟨session, evaluation', -, hevaluation', hrun⟩ := evaluation_of_evaluate hselect
  rw [hevaluation] at hevaluation'
  cases hevaluation'
  have hresult := Evaluation.result_of_evaluate hrun hroot db
  refine ⟨hresult, ?_⟩
  intro hsingle
  obtain ⟨plan, hplanned, hpaths, htable, -, -, -⟩ := Evaluation.evaluate_parts hrun
  have hone : ∀ root ∈ db.rows select.table, ∃ choice, evaluation.scope.relatedChoices db
      (evaluation.scope.usedPaths query.names) root = {choice} := by
    intro root hmem
    rw [htable] at hmem
    rw [← hpaths] at hsingle ⊢
    obtain ⟨choice, hchoice, -⟩ := hplanned.relatedChoices_single hmem hsingle
    exact ⟨choice, hchoice⟩
  refine ⟨hone, ?_⟩
  rw [hresult]
  exact Evaluation.bind_ways_of_single hone

namespace Library

/-- A row that holds something in the columns that are listed. -/
def rowOf (cells : List (String × String)) : Row (Option String) :=
  fun column => cells.lookup column

/-- Two books by one author; a book that nobody wrote would be NULL in its second column. -/
def shelf : Database (Option String) where
  rows table :=
    if table = "books" then
      {rowOf [("title", "Tides"), ("author_id", "1")],
        rowOf [("title", "Atlas"), ("author_id", "1")]}
    else if table = "authors" then {rowOf [("id", "1"), ("name", "anonymous")]}
    else 0
  equal
    | some a, some b => if a = b then .holds else .fails
    | _, _ => .unknown
  passes
    | .compare .equal (.string s), some a => if a = s then .holds else .fails
    | .like pattern, some a => if a = pattern then .holds else .fails
    | _, _ => .unknown

theorem single_shelf : scope.Single shelf (scope.usedPaths (query "anonymous" "Atlas").names) := by
  decide +kernel

/-- Of the two books, the one whose title does not match is returned. -/
theorem result_shelf : ((select "anonymous" "Atlas").result shelf).map
    (fun rows => rows.map fun row => row "title") = {[some "Tides"]} := by
  have hresult := (Endpoint.result_evaluate (evaluation_endpoint .sqlite noon)
    (evaluate_endpoint .sqlite noon "anonymous" "Atlas") (by decide) shelf).2 single_shelf
  rw [hresult.2]
  decide +kernel

end Library

end FilterSelect
