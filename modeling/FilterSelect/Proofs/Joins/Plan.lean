/-
Plans: the joins of a statement in the order in which they came about.

A statement and the list of entities joined into it are two views of one thing, the
list of all joins planned so far.  `Planned` says how such a list grows: each new
join starts from the root or from an earlier join, follows one relationship of the
entity there, serves a path that no earlier join serves, and is numbered by its
place.  Everything else that is true of plans follows from that by induction on how
they grew.

The main result is that a plan is no more than a list of paths: from the paths that
its joins serve every join can be written down again (`Planned.join?_eq`).
-/
import FilterSelect.Proofs.Joins.Path
import FilterSelect.Proofs.Lists

namespace FilterSelect

/-- The paths that the joins of a plan serve. -/
def pathsOf (plan : List PendingJoin) : List (List String) :=
  plan.map PendingJoin.path

@[simp] theorem pathsOf_nil : pathsOf [] = [] := rfl

@[simp] theorem pathsOf_append (plan more : List PendingJoin) :
    pathsOf (plan ++ more) = pathsOf plan ++ pathsOf more :=
  List.map_append

@[simp] theorem pathsOf_singleton (p : PendingJoin) : pathsOf [p] = [p.path] := rfl

namespace Scope

/-- What stands for a path under a plan: the root, or what the path's join brings in. -/
inductive Stands (scope : Scope) (plan : List PendingJoin) : List String → Entity → String → Prop
  | root : Stands scope plan [] scope.model scope.model.table
  | joined {p : PendingJoin} {target : Entity} (hmem : p ∈ plan)
      (htarget : scope.schema.find? p.entity = some target) :
      Stands scope plan p.path target p.join.aliasName

/-- The joins of a plan came about one by one, each from what already stood for its base. -/
inductive Planned (scope : Scope) : List PendingJoin → Prop
  | nil : Planned scope []
  | snoc {plan : List PendingJoin} {before : List String} {segment qualifier : String}
      {near target : Entity} {relationship : Relationship}
      (earlier : Planned scope plan)
      (base : Stands scope plan before near qualifier)
      (link : scope.follow near segment = .ok (relationship, target))
      (fresh : before ++ [segment] ∉ pathsOf plan) :
      Planned scope (plan ++ [⟨before ++ [segment], target.name,
        ⟨qualifier, relationship.localColumn, target.table,
          aliasOf target.table (plan.length + 1), relationship.remoteColumn⟩⟩])

variable {scope : Scope} {plan : List PendingJoin}

theorem Stands.append {path : List String} {entity : Entity} {qualifier : String}
    (h : scope.Stands plan path entity qualifier) (more : List PendingJoin) :
    scope.Stands (plan ++ more) path entity qualifier := by
  cases h with
  | root => exact .root
  | joined hmem htarget => exact .joined (List.mem_append_left _ hmem) htarget

/-- What stands, stands for the root or for a path of the plan. -/
theorem Stands.path_mem {path : List String} {entity : Entity} {qualifier : String}
    (h : scope.Stands plan path entity qualifier) : path = [] ∨ path ∈ pathsOf plan := by
  cases h with
  | root => exact Or.inl rfl
  | joined hmem _ => exact Or.inr (List.mem_map_of_mem hmem)

/-! ### What the joins of a plan serve

A join brings in what its path leads to, and its base stands for the path without its last
segment.  So what stands for a path can be followed up from the root.
-/

theorem Planned.leads (h : scope.Planned plan) :
    ∀ p ∈ plan, ∃ target, scope.schema.find? p.entity = some target ∧
      scope.reach scope.model p.path = .ok target := by
  induction h with
  | nil => simp
  | @snoc plan before segment qualifier near target relationship _ base link _ ih =>
      intro p hp
      rcases List.mem_append.mp hp with hp | hp
      · exact ih p hp
      · rw [List.mem_singleton.mp hp]
        refine ⟨target, find?_of_follow link, ?_⟩
        have hbefore : scope.reach scope.model before = .ok near := by
          cases base with
          | root => rfl
          | joined hmem htarget =>
              obtain ⟨base', hfind, hreach⟩ := ih _ hmem
              rw [hreach, ← Option.some.inj (hfind.symm.trans htarget)]
        rw [reach_concat segment hbefore, link]
        rfl

theorem Planned.reach_eq {path : List String} {entity : Entity} {qualifier : String}
    (h : scope.Planned plan) (hs : scope.Stands plan path entity qualifier) :
    scope.reach scope.model path = .ok entity := by
  cases hs with
  | root => rfl
  | joined hmem htarget =>
      obtain ⟨target, hfind, hreach⟩ := h.leads _ hmem
      rw [hreach, ← Option.some.inj (hfind.symm.trans htarget)]

/-- A join follows the last segment of its path to an entity that the schema lists. -/
theorem Planned.link?_eq (h : scope.Planned plan) :
    ∀ p ∈ plan, ∃ relationship target, scope.link? p.path = some (relationship, target) ∧
      scope.schema.find? target.name = some target ∧ p.entity = target.name ∧
      p.join.table = target.table ∧ p.join.localColumn = relationship.localColumn ∧
      p.join.remoteColumn = relationship.remoteColumn := by
  induction h with
  | nil => simp
  | @snoc plan before segment qualifier near target relationship earlier base link _ ih =>
      intro p hp
      rcases List.mem_append.mp hp with hp | hp
      · exact ih p hp
      · rw [List.mem_singleton.mp hp]
        refine ⟨relationship, target, ?_, find?_of_follow link, rfl, rfl, rfl, rfl⟩
        rw [link?_concat segment (earlier.reach_eq base), link]
        rfl

theorem Planned.stands {path : List String} (h : scope.Planned plan)
    (hpath : path = [] ∨ path ∈ pathsOf plan) :
    ∃ entity qualifier, scope.Stands plan path entity qualifier := by
  rcases hpath with rfl | hmem
  · exact ⟨_, _, .root⟩
  · obtain ⟨p, hp, rfl⟩ := List.mem_map.mp hmem
    obtain ⟨target, htarget, -⟩ := h.leads p hp
    exact ⟨target, _, .joined hp htarget⟩

/-- The base of a join stands for the path that is one segment shorter. -/
theorem Planned.base_stands (h : scope.Planned plan) :
    ∀ p ∈ plan, ∃ near, scope.Stands plan p.path.dropLast near p.join.base := by
  induction h with
  | nil => simp
  | @snoc plan before segment qualifier near target relationship _ base _ _ ih =>
      intro p hp
      rcases List.mem_append.mp hp with hp | hp
      · obtain ⟨near', hs⟩ := ih p hp
        exact ⟨near', hs.append _⟩
      · rw [List.mem_singleton.mp hp, List.dropLast_concat]
        exact ⟨near, base.append _⟩

theorem Planned.base_eq (h : scope.Planned plan) :
    ∀ earlier p later, plan = earlier ++ p :: later →
      p.join.base = scope.model.table ∨ p.join.base ∈ earlier.map fun q => q.join.aliasName := by
  induction h with
  | nil => simp
  | @snoc plan before segment qualifier near target relationship _ base _ _ ih =>
      intro earlier p later hsplit
      rcases append_singleton_eq_append_cons_iff.mp hsplit with ⟨rfl, rfl, -⟩ | ⟨middle, -, hplan⟩
      · -- the join in question is the new one
        cases base with
        | root => exact Or.inl rfl
        | joined hmem _ => exact Or.inr (List.mem_map.mpr ⟨_, hmem, rfl⟩)
      · exact ih earlier p middle hplan

theorem Planned.nodup (h : scope.Planned plan) : (pathsOf plan).Nodup := by
  induction h with
  | nil => simp
  | snoc _ _ _ fresh ih =>
      rw [pathsOf_append, pathsOf_singleton, List.nodup_append]
      refine ⟨ih, by simp, ?_⟩
      rintro path hpath last hlast rfl
      rw [List.mem_singleton.mp hlast] at hpath
      exact fresh hpath

theorem Planned.path_ne_nil (h : scope.Planned plan) : [] ∉ pathsOf plan := by
  induction h with
  | nil => simp
  | snoc _ _ _ _ ih => simpa using ih

/-! ### A plan is its paths

The number of a join is its place in the plan and hence the place of its path.  Nothing about a
join is left open then.
-/

/-- The place of a path that comes right after those of a plan. -/
theorem idxOf_of_prefix {path : List String} {used : List (List String)}
    (fresh : path ∉ pathsOf plan) (hused : pathsOf plan ++ [path] <+: used) :
    used.idxOf path = plan.length := by
  obtain ⟨later, rfl⟩ := hused
  rw [List.append_assoc, List.idxOf_append_of_notMem fresh]
  simp [pathsOf]

/--
Every join of a plan is the one that its path calls for.  The plan may be the first
part of a longer list of used paths: paths that come later change no number.
-/
theorem Planned.join?_eq {used : List (List String)} (h : scope.Planned plan) :
    pathsOf plan <+: used → ∀ p ∈ plan, scope.join? used p.path = some p.join := by
  induction h with
  | nil => simp
  | @snoc plan before segment qualifier near target relationship earlier base link fresh ih =>
      intro hused p hp
      have hplan : pathsOf plan <+: used :=
        List.IsPrefix.trans (by simp) hused
      rcases List.mem_append.mp hp with hp | hp
      · exact ih hplan p hp
      · rw [List.mem_singleton.mp hp]
        have hnumber : used.idxOf (before ++ [segment]) = plan.length :=
          idxOf_of_prefix fresh (by simpa using hused)
        have hbase : scope.qualifier? used before = some qualifier := by
          cases base with
          | root => simp [qualifier?]
          | joined hmem _ => exact qualifier?_of_join? (ih hplan _ hmem)
        simp [join?, link?_concat segment (earlier.reach_eq base), link, hnumber, hbase,
          Except.toOption]

theorem Planned.qualifier?_eq {used : List (List String)} {path : List String} {entity : Entity}
    {qualifier : String} (h : scope.Planned plan) (hused : pathsOf plan <+: used)
    (hs : scope.Stands plan path entity qualifier) :
    scope.qualifier? used path = some qualifier := by
  cases hs with
  | root => simp [qualifier?]
  | joined hmem _ => exact qualifier?_of_join? (h.join?_eq hused _ hmem)

/-- The qualifier of a path that a plan serves stands for the path. -/
theorem Planned.stands_qualifier? {path : List String} {qualifier : String}
    (h : scope.Planned plan) (hpath : path = [] ∨ path ∈ pathsOf plan)
    (hqualifier : scope.qualifier? (pathsOf plan) path = some qualifier) :
    ∃ entity, scope.Stands plan path entity qualifier := by
  obtain ⟨entity, standing, hs⟩ := h.stands hpath
  have heq := h.qualifier?_eq (List.prefix_refl _) hs
  rw [hqualifier] at heq
  rw [Option.some.inj heq]
  exact ⟨entity, hs⟩

end Scope

end FilterSelect
