/-
What holds of a statement after any attempts at names.

The list of joined entities says which paths need no join any more, so everything
depends on its agreeing with the statement: on one join for each listed path, in the
same order and under the same alias.  `Consistent` states that, with what follows for
aliases, bases and fields.  It is read off the plan that a transcript follows, whatever
was attempted and whatever failed.
-/
import FilterSelect.Proofs.Joins.Attempts
import Mathlib.Data.List.Forall2

namespace FilterSelect

/-- A listed entity and a join are about one thing: the join brings in the entity's table. -/
def JoinedEntity.Matches (scope : Scope) (j : JoinedEntity) (join : Join) : Prop :=
  j.aliasName = join.aliasName ∧
    ∃ entity : Entity, scope.schema.find? j.entity = some entity ∧ join.table = entity.table

/--
A field at the end of a path: its qualifier is the root table or the alias of what is
listed for the path, and the entity behind it declares the column.
-/
def Draft.Declares (scope : Scope) (draft : Draft) (path : List String) (field : Field) : Prop :=
  ∃ entity : Entity, entity.column? field.column = some ⟨field.column, field.type⟩ ∧
    ((path = [] ∧ field.qualifier = scope.model.table ∧ entity = scope.model) ∨
      ∃ j ∈ draft.joined, j.path = path ∧ field.qualifier = j.aliasName ∧
        scope.schema.find? j.entity = some entity)

namespace Transcript

/-- What holds of a transcript of a statement that had no joins at first. -/
structure Consistent (scope : Scope) (t : Transcript) : Prop where
  /-- What is listed and what is joined correspond one to one, in order. -/
  listed : List.Forall₂ (JoinedEntity.Matches scope) t.draft.joined t.draft.select.joins
  nodup_paths : t.paths.Nodup
  nodup_aliases : (t.draft.select.joins.map Join.aliasName).Nodup
  /-- The listed paths are the non-empty prefixes of the paths of the names applied. -/
  mem_paths : ∀ path, path ∈ t.paths ↔
    path ≠ [] ∧ ∃ name ∈ t.names, path <+: scope.pathOf name
  closed : ∀ path ∈ t.paths, ∀ beginning, beginning ≠ [] → beginning <+: path →
    beginning ∈ t.paths
  length_eq : t.draft.joined.length = t.draft.select.joins.length
  /-- The numbers that aliases have are those from 1 to the number of joins. -/
  numbers : ∀ number, (∃ j ∈ t.draft.select.joins, ∃ table, j.aliasName = aliasOf table number) ↔
    1 ≤ number ∧ number ≤ t.draft.select.joins.length
  /-- Every join starts from the root table or from a join before it. -/
  based : ∀ earlier j later, t.draft.select.joins = earlier ++ j :: later →
    j.base = scope.model.table ∨ j.base ∈ earlier.map Join.aliasName
  declared : ∀ name field, (name, field) ∈ t.applied →
    t.draft.Declares scope (scope.pathOf name) field
  /-- A name that was applied resolves to the same field from then on, and lacks no join. -/
  settled : ∀ name field, (name, field) ∈ t.applied →
    scope.resolve t.draft.joined name = .ok ⟨field, scope.pathOf name, []⟩

variable {scope : Scope} {base : Select} {plan : List PendingJoin} {t : Transcript}

theorem Follows.paths_eq (h : t.Follows scope base plan) : t.paths = pathsOf plan := by
  simp [paths, h.joined, pathsOf, PendingJoin.joined, Function.comp_def]

theorem Follows.joins_eq (h : t.Follows scope base plan) (hbase : base.joins = []) :
    t.draft.select.joins = plan.map PendingJoin.join := by
  simp [h.select, hbase]

private theorem mem_names {name : String} {field : Field} (h : (name, field) ∈ t.applied) :
    name ∈ t.names :=
  List.mem_map.mpr ⟨_, h, rfl⟩

theorem Follows.mem_paths (h : t.Follows scope base plan) (path : List String) :
    path ∈ t.paths ↔ path ≠ [] ∧ ∃ name ∈ t.names, path <+: scope.pathOf name := by
  rw [h.paths_eq, h.served, Scope.mem_usedPaths_iff]
  simp only [mem_beginnings]
  constructor
  · rintro ⟨name, hname, hne, hprefix⟩
    exact ⟨hne, name, hname, hprefix⟩
  · rintro ⟨hne, name, hname, hprefix⟩
    exact ⟨name, hname, hne, hprefix⟩

theorem Follows.stands {name : String} {field : Field} (h : t.Follows scope base plan)
    (hmem : (name, field) ∈ t.applied) :
    ∃ entity, scope.Stands plan (scope.pathOf name) entity field.qualifier ∧
      entity.column? field.column = some ⟨field.column, field.type⟩ := by
  have hfield := h.fields name field hmem _ (List.prefix_refl _)
  obtain ⟨path, column, hname, hqualifier, rfl⟩ := Scope.destination_of_field? hfield
  obtain ⟨last, hreach, hcolumn⟩ := Scope.reach_of_destination hname
  have hpath : path = [] ∨ path ∈ pathsOf plan := by
    by_cases hnil : path = []
    · exact Or.inl hnil
    · rw [h.served]
      exact Or.inr (Scope.mem_usedPaths (mem_names hmem) hname hnil)
  obtain ⟨entity, hs⟩ := h.planned.stands_qualifier? hpath hqualifier
  have hentity : entity = last := Except.ok.inj ((h.planned.reach_eq hs).symm.trans hreach)
  rw [Scope.pathOf_of_destination hname]
  exact ⟨last, hentity ▸ hs, hcolumn⟩

private theorem Follows.declares {name : String} {field : Field} (h : t.Follows scope base plan)
    (hmem : (name, field) ∈ t.applied) : t.draft.Declares scope (scope.pathOf name) field := by
  obtain ⟨entity, hs, hcolumn⟩ := h.stands hmem
  refine ⟨entity, hcolumn, ?_⟩
  generalize scope.pathOf name = path at hs
  generalize field.qualifier = qualifier at hs
  cases hs with
  | root => exact Or.inl ⟨rfl, rfl, rfl⟩
  | @joined p _ hp hentity =>
      refine Or.inr ⟨p.joined, ?_, rfl, rfl, hentity⟩
      rw [h.joined]
      exact List.mem_map_of_mem hp

private theorem Follows.resolve_eq {name : String} {field : Field} (h : t.Follows scope base plan)
    (hmem : (name, field) ∈ t.applied) :
    scope.resolve t.draft.joined name = .ok ⟨field, scope.pathOf name, []⟩ := by
  have hfield := h.fields name field hmem
  obtain ⟨path, column, hname, -, -⟩ := Scope.destination_of_field? (hfield _ (List.prefix_refl _))
  obtain ⟨resolution, hresolve, hpath, -, hpaths, hagain⟩ := h.planned.resolve_ok hname
  have hserved : beginnings path ⊆ pathsOf plan := by
    intro beginning hbeginning
    rw [h.served, Scope.mem_usedPaths_iff]
    exact ⟨name, mem_names hmem, by rwa [Scope.pathOf_of_destination hname]⟩
  rw [eraseDups_append_of_subset hserved, eraseDups_of_nodup h.planned.nodup, pathsOf_append,
    List.append_right_eq_self] at hpaths
  have hpending : resolution.pending = [] := List.map_eq_nil_iff.mp hpaths
  have hsame : field = resolution.field := by
    have hused : pathsOf plan <+: pathsOf (plan ++ resolution.pending) := by simp
    exact Option.some.inj ((hfield _ hused).symm.trans (hagain _ (List.prefix_refl _)))
  rw [h.joined, hresolve, hsame, Scope.pathOf_of_destination hname, ← hpath, ← hpending]

private theorem Follows.consistent (h : t.Follows scope base plan) (hbase : base.joins = []) :
    t.Consistent scope where
  listed := by
    rw [h.joined, h.joins_eq hbase, List.forall₂_map_left_iff, List.forall₂_map_right_iff,
      List.forall₂_same]
    intro p hp
    obtain ⟨relationship, target, -, hfind, hentity, htable, -, -⟩ := h.planned.link?_eq p hp
    rw [← hentity] at hfind
    exact ⟨rfl, target, hfind, htable⟩
  nodup_paths := h.paths_eq ▸ h.planned.nodup
  nodup_aliases := by
    rw [h.joins_eq hbase, List.map_map]
    exact h.planned.nodup_aliases
  mem_paths := h.mem_paths
  closed := by
    intro path hpath beginning hne hbeginning
    obtain ⟨-, name, hname, hprefix⟩ := (h.mem_paths path).mp hpath
    exact (h.mem_paths beginning).mpr ⟨hne, name, hname, hbeginning.trans hprefix⟩
  length_eq := by simp [h.joined, h.joins_eq hbase]
  numbers := by
    intro number
    have hnumbers := h.planned.mem_numbers number
    simpa [h.joins_eq hbase] using hnumbers
  based := by
    intro earlier j later hsplit
    rw [h.joins_eq hbase, List.map_eq_append_iff] at hsplit
    obtain ⟨before, after, hplan, rfl, hafter⟩ := hsplit
    obtain ⟨p, rest, rfl, rfl, -⟩ := List.map_eq_cons_iff.mp hafter
    rw [List.map_map]
    exact h.planned.base_eq before p rest hplan
  declared := fun _ _ hmem => h.declares hmem
  settled := fun _ _ hmem => h.resolve_eq hmem

/--
**After any attempts, what is listed as joined is what the applied names need and what
the statement joins, and an attempt that fails changes neither.**
-/
theorem consistent_ofNames (scope : Scope) {base : Select} (hbase : base.joins = [])
    (names : List String) :
    (ofNames scope base names).Consistent scope ∧
      ∀ name fault draft, (ofNames scope base names).draft.attempt scope name =
        (.error fault, draft) → draft = (ofNames scope base names).draft := by
  obtain ⟨plan, hfollows⟩ := follows_ofNames scope base names
  refine ⟨hfollows.consistent hbase, ?_⟩
  intro name fault draft hattempt
  rw [Draft.attempt_eq] at hattempt
  split at hattempt
  · exact (congrArg Prod.snd hattempt).symm
  · cases hattempt

end Transcript

/-! ### A staff -/

namespace Staff

/-- Employees, each of whom has another one for a manager. -/
def employee : Entity :=
  ⟨"employee", "employees", [⟨"name", .string⟩, ⟨"manager_id", .integer⟩],
    [.manyToOne "manager" "employee" "manager_id" "id"]⟩

/-- Where employees are looked up by those one and two levels above them. -/
def scope : Scope where
  schema := Directory.ofList [employee]
  model := employee
  bindings := Directory.ofList [⟨"head", .joined "name" ["manager", "manager"]⟩,
    ⟨"manager", .joined "name" ["manager"]⟩, ⟨"salary", .joined "salary" ["manager"]⟩]

/-- Nobody has a salary here, so the second of three attempts fails. -/
theorem consistent_attempts :
    (Select.allOf "employees").joins = [] ∧
      (Transcript.ofNames scope (.allOf "employees") ["head", "salary", "manager"]).names =
        ["head", "manager"] ∧
      (Transcript.ofNames scope (.allOf "employees") ["head", "salary", "manager"]).Consistent
        scope :=
  ⟨rfl, by decide, (Transcript.consistent_ofNames scope rfl _).1⟩

end Staff

end FilterSelect
