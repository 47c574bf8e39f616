/-
The joins of a plan make related choices.

A choice has a row for each path, a row combination of a statement has one for each
name in its FROM clause, and a plan says which name stands for which path.  Read
that way, the combinations that the joins of a plan make of the root rows are the
related choices for the paths of the plan, each of them once.  That is the main
result (`Planned.joined_eq`), by induction on how the plan grew: the next join finds
the row that its base stands for, and what it adds is a matching row at the end of
the new path.

It takes distinct names, or a qualifier would be read from the wrong row.  Aliases are
distinct; that none of them is the name of the root table has to be assumed.
-/
import FilterSelect.Proofs.Joins.Alias
import FilterSelect.Proofs.Rows.Choices

namespace FilterSelect

variable {Cell : Type}

namespace Scope

/-- The row combination that a choice stands for under a plan. -/
def environment (scope : Scope) (plan : List PendingJoin) (choice : Choice Cell) :
    Environment Cell :=
  (scope.model.table, choice []) :: plan.map fun p => (p.join.aliasName, choice p.path)

/-- No alias of a plan is the name of the root table. -/
def RootApart (scope : Scope) (plan : List PendingJoin) : Prop :=
  ∀ p ∈ plan, p.join.aliasName ≠ scope.model.table

variable {scope : Scope} {plan : List PendingJoin} {db : Database Cell} {choice : Choice Cell}

private theorem Planned.nodup_names (h : scope.Planned plan) (hroot : scope.RootApart plan) :
    ((scope.environment plan choice).map Prod.fst).Nodup := by
  have hnames : (scope.environment plan choice).map Prod.fst =
      scope.model.table :: plan.map fun p => p.join.aliasName := by
    simp [environment, Function.comp_def]
  rw [hnames, List.nodup_cons]
  refine ⟨?_, h.nodup_aliases⟩
  intro hmem
  obtain ⟨p, hp, hname⟩ := List.mem_map.mp hmem
  exact hroot p hp hname

/-- What stands for a path is the row that is chosen for the path. -/
theorem Planned.lookup_eq {path : List String} {entity : Entity} {qualifier : String}
    (h : scope.Planned plan) (hroot : scope.RootApart plan)
    (hs : scope.Stands plan path entity qualifier) (choice : Choice Cell) :
    (scope.environment plan choice).lookup qualifier = some (choice path) := by
  refine (lookup_eq_some_iff_mem (h.nodup_names hroot)).mpr ?_
  cases hs with
  | root => exact List.mem_cons_self
  | joined hmem _ => exact List.mem_cons_of_mem _ (List.mem_map.mpr ⟨_, hmem, rfl⟩)

private theorem Planned.dropLast_mem (h : scope.Planned plan) :
    ∀ path ∈ pathsOf plan, path.dropLast = [] ∨ path.dropLast ∈ pathsOf plan := by
  intro path hpath
  obtain ⟨p, hp, rfl⟩ := List.mem_map.mp hpath
  obtain ⟨near, hbase⟩ := h.base_stands p hp
  exact hbase.path_mem

private theorem Planned.dropLast_ne {path : List String} (h : scope.Planned plan)
    (hpath : path ≠ [])
    (hfresh : path ∉ pathsOf plan) : ∀ other ∈ pathsOf plan, other.dropLast ≠ path := by
  intro other hother hdrop
  rcases h.dropLast_mem other hother with hroot | hmem
  · exact hpath (hdrop.symm.trans hroot)
  · exact hfresh (hdrop ▸ hmem)

/-! ### One join

The base of a new join has the row of the path without its last segment, so what the join adds
to a combination are the rows that match that one.
-/

private theorem environment_append {path : List String} {entity : String} {join : Join}
    (hpath : path ≠ []) (hfresh : path ∉ pathsOf plan) (far : Row Cell) :
    scope.environment (plan ++ [⟨path, entity, join⟩]) (Function.update choice path far) =
      scope.environment plan choice ++ [(join.aliasName, far)] := by
  have hold : ∀ p ∈ plan, Function.update choice path far p.path = choice p.path := by
    intro p hp
    refine Function.update_of_ne ?_ ..
    rintro rfl
    exact hfresh (List.mem_map_of_mem hp)
  have hplan : (plan.map fun p => (p.join.aliasName, Function.update choice path far p.path)) =
      plan.map fun p => (p.join.aliasName, choice p.path) := by
    refine List.map_congr_left ?_
    intro p hp
    rw [hold p hp]
  simp [environment, hplan, Function.update_of_ne hpath.symm]

/-- What a new join makes of a combination: a matching row at the end of the new path is added. -/
theorem Planned.extend_eq {before : List String} {segment qualifier alias' : String}
    {near target : Entity} {relationship : Relationship} {p : PendingJoin}
    (h : scope.Planned (plan ++ [p])) (hroot : scope.RootApart (plan ++ [p]))
    (base : scope.Stands plan before near qualifier)
    (hreach : scope.reach scope.model before = .ok near)
    (link : scope.follow near segment = .ok (relationship, target))
    (fresh : before ++ [segment] ∉ pathsOf plan)
    (hp : p = ⟨before ++ [segment], target.name,
      ⟨qualifier, relationship.localColumn, target.table, alias', relationship.remoteColumn⟩⟩) :
    p.join.extend db (scope.environment plan choice) =
      (scope.matching db p.path (choice before)).map fun far =>
        scope.environment (plan ++ [p]) (Function.update choice p.path far) := by
  have hpath : p.path ≠ [] := by
    rw [hp]
    simp
  have hrows : scope.rowsAt db p.path = db.rows target.table := by
    rw [rowsAt, hp, reach_concat segment hreach, link]
    rfl
  have hadd : ∀ far, scope.environment (plan ++ [p]) (Function.update choice p.path far) =
      scope.environment plan choice ++ [(p.join.aliasName, far)] := by
    intro far
    exact environment_append hpath (by rwa [hp]) far
  have htruth : ∀ far,
      p.join.truth db (scope.environment plan choice ++ [(p.join.aliasName, far)]) =
        db.equal (choice before relationship.localColumn) (far relationship.remoteColumn) := by
    intro far
    have hbefore : Function.update choice p.path far before = choice before := by
      refine Function.update_of_ne ?_ ..
      rw [hp]
      simp
    have hnew : scope.Stands (plan ++ [p]) p.path target p.join.aliasName :=
      .joined (by simp) (by rw [hp]; exact find?_of_follow link)
    have hnear := h.lookup_eq hroot (base.append [p]) (Function.update choice p.path far)
    have hfar := h.lookup_eq hroot hnew (Function.update choice p.path far)
    rw [hadd] at hnear hfar
    rw [Join.truth, Environment.cell?, Environment.cell?, hfar]
    subst hp
    rw [hnear, hbefore, Function.update_self]
    rfl
  unfold Join.extend
  rw [matching, hp, link?_concat segment hreach, link, ← hp, hrows, Multiset.filter_map]
  simp only [hadd]
  subst hp
  simp only [Function.comp_def, htruth]
  rfl

/-! ### All joins

A plan grows by one join at a time, and so do the related choices for its paths.
-/

/-- A new path of a plan adds a matching row to every related choice. -/
theorem Planned.relatedChoices_eq {path : List String} {root : Row Cell} (h : scope.Planned plan)
    (hpath : path ≠ []) (hfresh : path ∉ pathsOf plan) :
    scope.relatedChoices db (pathsOf plan ++ [path]) root =
      (scope.relatedChoices db (pathsOf plan) root).bind fun choice =>
        (scope.matching db path (choice path.dropLast)).map (Function.update choice path) :=
  relatedChoices_append hpath hfresh (h.dropLast_ne hpath hfresh)

/-- **The joins of a plan make the related choices for its paths, each of them once.** -/
theorem Planned.joined_eq (h : scope.Planned plan) :
    scope.RootApart plan →
      joined db scope.model.table (plan.map PendingJoin.join) =
        (db.rows scope.model.table).bind fun root =>
          (scope.relatedChoices db (pathsOf plan) root).map (scope.environment plan) := by
  induction h with
  | nil =>
      intro _
      simp [joined, relatedChoices_nil, environment]
  | @snoc plan before segment qualifier near target relationship earlier base link fresh ih =>
      intro hroot
      have hearlier : scope.RootApart plan := fun p hp => hroot p (List.mem_append_left _ hp)
      have hplan := earlier.snoc base link fresh
      have hreach := earlier.reach_eq base
      rw [List.map_append, List.map_singleton, joined_append, ih hearlier, Multiset.bind_assoc]
      refine Multiset.bind_congr ?_
      intro root _
      rw [pathsOf_append, pathsOf_singleton, earlier.relatedChoices_eq (by simp) fresh,
        Multiset.bind_map, Multiset.map_bind]
      refine Multiset.bind_congr ?_
      intro choice _
      rw [hplan.extend_eq hroot base hreach link fresh rfl, Multiset.map_map,
        List.dropLast_concat]
      rfl

/-! ### One match for each relationship -/

/-- Along each of some paths, every row one segment before has exactly one match at the end. -/
def Single (scope : Scope) (db : Database Cell) (used : List (List String)) : Prop :=
  ∀ path ∈ used, ∀ near ∈ scope.rowsAt db path.dropLast, (scope.matching db path near).card = 1

instance (used : List (List String)) : Decidable (scope.Single db used) :=
  inferInstanceAs (Decidable (∀ path ∈ used, ∀ near ∈ scope.rowsAt db path.dropLast, _))

theorem mem_rowsAt_of_mem_matching {path : List String} {near far : Row Cell}
    (h : far ∈ scope.matching db path near) : far ∈ scope.rowsAt db path := by
  unfold matching at h
  split at h
  · exact Multiset.mem_of_mem_filter h
  · cases h

/-- Where every relationship has one match, a root row can be related in one way only. -/
theorem Planned.relatedChoices_single {root : Row Cell} (h : scope.Planned plan)
    (hroot : root ∈ db.rows scope.model.table) :
    scope.Single db (pathsOf plan) →
      ∃ choice, scope.relatedChoices db (pathsOf plan) root = {choice} ∧
        ∀ path, path = [] ∨ path ∈ pathsOf plan → choice path ∈ scope.rowsAt db path := by
  induction h with
  | nil =>
      intro _
      refine ⟨fun _ => root, relatedChoices_nil, ?_⟩
      intro path hpath
      rw [hpath.resolve_right (by simp)]
      exact hroot
  | @snoc plan before segment qualifier near target relationship earlier base link fresh ih =>
      intro hsingle
      rw [pathsOf_append, pathsOf_singleton] at hsingle ⊢
      obtain ⟨choice, hchoice, hrows⟩ :=
        ih fun path hpath => hsingle path (List.mem_append_left _ hpath)
      have hbefore : before = [] ∨ before ∈ pathsOf plan := by
        cases base with
        | root => exact Or.inl rfl
        | joined hmem _ => exact Or.inr (List.mem_map_of_mem hmem)
      have hone := hsingle (before ++ [segment]) (by simp) (choice before)
        (by rw [List.dropLast_concat]; exact hrows before hbefore)
      obtain ⟨far, hfar⟩ := Multiset.card_eq_one.mp hone
      refine ⟨Function.update choice (before ++ [segment]) far, ?_, ?_⟩
      · rw [earlier.relatedChoices_eq (by simp) fresh, hchoice, Multiset.singleton_bind,
          List.dropLast_concat, hfar, Multiset.map_singleton]
      · intro path hpath
        by_cases hnew : path = before ++ [segment]
        · rw [hnew, Function.update_self]
          have hmatch : far ∈ scope.matching db (before ++ [segment]) (choice before) := by
            rw [hfar]
            exact Multiset.mem_singleton_self far
          exact mem_rowsAt_of_mem_matching hmatch
        · rw [Function.update_of_ne hnew]
          refine hrows path ?_
          simpa [hnew] using hpath

end Scope

end FilterSelect
