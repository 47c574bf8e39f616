/-
Resolving a name amid others comes to the same as resolving it alone.

A walk along a path mixes two kinds of steps: where a beginning of the path has been
joined before, it jumps to what that join brought in, and elsewhere it follows the
schema and plans a join.  `Position.Sound` is what ties the two together: the joins
of the statement and those planned on the way form one plan, and the walk stands
where the schema alone would have led it.  So a step succeeds if and only if the
segment leads on (`step_error`, `step_ok`), a walk succeeds if and only if its path
leads to an entity, and a name resolves if and only if it has a destination.

What a walk adds to a plan are the beginnings of its path that were not served yet,
in their order.  With `Draft.Follows` these facts are stated of a statement under
construction, which is the form in which evaluations use them.
-/
import FilterSelect.Proofs.Joins.Plan

namespace FilterSelect

/-- A walk stands where the schema leads, and what it has planned continues a plan. -/
structure Position.Sound (scope : Scope) (plan : List PendingJoin) (here : Position) : Prop where
  /-- The joins planned on the way continue those of the statement. -/
  planned : scope.Planned (plan ++ here.pending)
  /-- The qualifier stands for the path walked so far. -/
  stands : scope.Stands (plan ++ here.pending) here.path here.entity here.qualifier
  /-- The joins planned on the way serve no path beyond the walk. -/
  behind : ∀ p ∈ here.pending, p.path.length ≤ here.path.length

namespace Scope

variable {scope : Scope} {plan : List PendingJoin} {here : Position}

theorem findJoined?_map (plan : List PendingJoin) (path : List String) :
    findJoined? (plan.map PendingJoin.joined) path =
      (plan.find? fun p => p.path == path).map PendingJoin.joined := by
  rw [findJoined?, List.find?_map]
  rfl

theorem sound_root (h : scope.Planned plan) : scope.root.Sound scope plan where
  planned := by simpa [root] using h
  stands := .root
  behind := by simp [root]

/-! ### One step

A step goes to what was joined for the longer path, or follows the schema.  A plan that serves
a path serves it with what the schema leads to, so both come to the same entity.
-/

theorem reach_of_find? {p : PendingJoin} {path : List String} (h : here.Sound scope plan)
    (hfind : plan.find? (fun p => p.path == path) = some p) :
    p ∈ plan ∧ p.path = path ∧ ∃ target, scope.schema.find? p.entity = some target ∧
      scope.reach scope.model path = .ok target := by
  have hmem : p ∈ plan := List.mem_of_find?_eq_some hfind
  have hpath : p.path = path := by simpa using List.find?_some hfind
  obtain ⟨target, hentity, hreach⟩ := h.planned.leads p (List.mem_append_left _ hmem)
  exact ⟨hmem, hpath, target, hentity, hpath ▸ hreach⟩

theorem step_error {segment : String} {fault : NameFault} (h : here.Sound scope plan)
    (hfollow : scope.follow here.entity segment = .error fault) :
    scope.step (plan.map PendingJoin.joined) here segment = .error fault := by
  have hreach := reach_concat segment (h.planned.reach_eq h.stands)
  rw [hfollow] at hreach
  unfold step
  simp only [findJoined?_map]
  cases hfind : plan.find? (fun p => p.path == here.path ++ [segment]) with
  | none => simp only [Option.map_none, hfollow]
  | some p =>
      -- a joined path leads somewhere, and this one does not
      obtain ⟨-, -, target, -, hok⟩ := reach_of_find? h hfind
      rw [hok] at hreach
      cases hreach

private theorem fresh_of_find? {segment : String} (h : here.Sound scope plan)
    (hfind : plan.find? (fun p => p.path == here.path ++ [segment]) = none) :
    here.path ++ [segment] ∉ pathsOf (plan ++ here.pending) := by
  rw [pathsOf_append, List.mem_append]
  rintro (hp | hp)
  · obtain ⟨p, hmem, hpath⟩ := List.mem_map.mp hp
    have hne := List.find?_eq_none.mp hfind p hmem
    exact absurd hpath (by simpa using hne)
  · -- what the walk has planned so far serves shorter paths
    obtain ⟨p, hmem, hpath⟩ := List.mem_map.mp hp
    have hlength := h.behind p hmem
    rw [hpath, List.length_append, List.length_singleton] at hlength
    omega

/-- A segment that leads on takes a walk there and plans a join if none serves the path. -/
theorem step_ok {segment : String} {relationship : Relationship} {target : Entity}
    (h : here.Sound scope plan)
    (hfollow : scope.follow here.entity segment = .ok (relationship, target)) :
    ∃ next, scope.step (plan.map PendingJoin.joined) here segment = .ok next ∧
      next.Sound scope plan ∧ next.path = here.path ++ [segment] ∧ next.entity = target ∧
      pathsOf (plan ++ next.pending) =
        (pathsOf (plan ++ here.pending) ++ [here.path ++ [segment]]).eraseDups := by
  have hreach := reach_concat segment (h.planned.reach_eq h.stands)
  rw [hfollow] at hreach
  unfold step
  simp only [findJoined?_map]
  cases hfind : plan.find? (fun p => p.path == here.path ++ [segment]) with
  | some p =>
      obtain ⟨hmem, hpath, entity, hentity, hok⟩ := reach_of_find? h hfind
      have htarget : entity = target := Except.ok.inj (hok.symm.trans hreach)
      subst htarget
      have hserved : here.path ++ [segment] ∈ pathsOf (plan ++ here.pending) := by
        rw [← hpath]
        exact List.mem_map_of_mem (List.mem_append_left _ hmem)
      refine
        ⟨⟨here.path ++ [segment], entity, p.join.aliasName, here.pending⟩, ?_, ?_, rfl, rfl, ?_⟩
      · simp only [Option.map_some, PendingJoin.joined, hentity]
      · refine ⟨h.planned, ?_, ?_⟩
        · show scope.Stands (plan ++ here.pending) (here.path ++ [segment]) entity p.join.aliasName
          rw [← hpath]
          exact .joined (List.mem_append_left _ hmem) hentity
        · intro q hq
          exact Nat.le_trans (h.behind q hq) (by simp)
      · rw [eraseDups_append_singleton, if_pos hserved, eraseDups_of_nodup h.planned.nodup]
  | none =>
      have hfresh := fresh_of_find? h hfind
      have hgrown := Planned.snoc h.planned h.stands hfollow hfresh
      simp only [Option.map_none, hfollow, List.length_map]
      refine ⟨_, rfl, ?_, rfl, rfl, ?_⟩
      · refine ⟨?_, ?_, ?_⟩
        · rw [← List.append_assoc]
          simpa [Nat.add_assoc] using hgrown
        · exact Stands.joined
            (List.mem_append_right _ (List.mem_append_right _ (List.mem_singleton_self _)))
            (find?_of_follow hfollow)
        · intro p hp
          rcases List.mem_append.mp hp with hp | hp
          · exact Nat.le_trans (h.behind p hp) (by simp)
          · rw [List.mem_singleton.mp hp]
      · rw [eraseDups_append_singleton, if_neg hfresh, eraseDups_of_nodup h.planned.nodup,
          ← List.append_assoc, pathsOf_append _ [_], pathsOf_singleton]

/-! ### A walk -/

private theorem walk_error {rest : List String} {fault : NameFault} (h : here.Sound scope plan)
    (hreach : scope.reach here.entity rest = .error fault) :
    scope.walk (plan.map PendingJoin.joined) here rest = .error fault := by
  induction rest generalizing here with
  | nil => cases hreach
  | cons segment rest ih =>
      rw [reach] at hreach
      rw [walk]
      cases hfollow : scope.follow here.entity segment with
      | error fault' =>
          rw [hfollow] at hreach
          rw [step_error h hfollow]
          exact congrArg _ (Except.error.inj hreach)
      | ok link =>
          obtain ⟨relationship, target⟩ := link
          obtain ⟨next, hstep, hnext, -, hentity, -⟩ := step_ok h hfollow
          rw [hfollow] at hreach
          rw [hstep]
          exact ih hnext (hentity ▸ hreach)

/-- A walk along a path that leads somewhere serves the beginnings of that path in order. -/
theorem walk_ok {rest : List String} {last : Entity} (h : here.Sound scope plan)
    (hreach : scope.reach here.entity rest = .ok last) :
    ∃ there, scope.walk (plan.map PendingJoin.joined) here rest = .ok there ∧
      there.Sound scope plan ∧ there.path = here.path ++ rest ∧ there.entity = last ∧
      pathsOf (plan ++ there.pending) =
        (pathsOf (plan ++ here.pending) ++ (beginnings rest).map (here.path ++ ·)).eraseDups := by
  induction rest generalizing here with
  | nil =>
      refine ⟨here, rfl, h, by simp, Except.ok.inj hreach, ?_⟩
      rw [beginnings_nil, List.map_nil, List.append_nil, eraseDups_of_nodup h.planned.nodup]
  | cons segment rest ih =>
      rw [reach] at hreach
      cases hfollow : scope.follow here.entity segment with
      | error fault =>
          rw [hfollow] at hreach
          cases hreach
      | ok link =>
          obtain ⟨relationship, target⟩ := link
          obtain ⟨next, hstep, hnext, hpath, hentity, hserved⟩ := step_ok h hfollow
          rw [hfollow] at hreach
          obtain ⟨there, hwalk, hthere, hpath', hentity', hserved'⟩ := ih hnext (hentity ▸ hreach)
          refine ⟨there, ?_, hthere, ?_, hentity', ?_⟩
          · rw [walk, hstep]
            exact hwalk
          · rw [hpath', hpath, List.append_assoc]
            rfl
          · rw [hserved', hserved, hpath, eraseDups_eraseDups_append, beginnings_cons]
            simp [Function.comp_def]

end Scope

/-! ### A name

A name that has no destination fails for the reason that the schema gives, in any statement.
One that has a destination resolves in any statement.
-/

namespace Scope

variable {scope : Scope} {plan : List PendingJoin}

/-- A name without a destination fails to resolve, with the same fault. -/
theorem Planned.resolve_error {name : String} {fault : NameFault} (h : scope.Planned plan)
    (hname : scope.destination name = .error fault) :
    scope.resolve (plan.map PendingJoin.joined) name = .error fault := by
  unfold destination at hname
  unfold resolve
  cases hentry : scope.entry name with
  | error fault' =>
      rw [hentry] at hname
      exact congrArg _ (Except.error.inj hname)
  | ok entry =>
      rw [hentry] at hname
      dsimp only at hname ⊢
      cases hreach : scope.reach scope.model entry.path with
      | error fault' =>
          rw [hreach] at hname
          simp only [walk_error (sound_root h) hreach]
          exact congrArg _ (Except.error.inj hname)
      | ok last =>
          obtain ⟨there, hwalk, -, -, hentity, -⟩ := walk_ok (sound_root h) hreach
          rw [hreach] at hname
          simp only [hwalk, hentity]
          cases hcolumn : last.column? entry.column with
          | none =>
              simp only [hcolumn] at hname
              exact congrArg _ (Except.error.inj hname)
          | some column =>
              simp only [hcolumn] at hname
              cases hname

/--
A name with a destination resolves to the column there.  The joins that the resolution
lacks continue the plan and serve the beginnings of the path that were not served yet,
and the field is the one that the served paths, or any longer list that begins with
them, determine.
-/
theorem Planned.resolve_ok {name : String} {path : List String} {column : Column}
    (h : scope.Planned plan) (hname : scope.destination name = .ok (path, column)) :
    ∃ resolution, scope.resolve (plan.map PendingJoin.joined) name = .ok resolution ∧
      resolution.path = path ∧ scope.Planned (plan ++ resolution.pending) ∧
      pathsOf (plan ++ resolution.pending) = (pathsOf plan ++ beginnings path).eraseDups ∧
      ∀ used, pathsOf (plan ++ resolution.pending) <+: used →
        scope.field? used name = some resolution.field := by
  have hdestination := hname
  unfold destination at hname
  split at hname
  · cases hname
  rename_i entry hentry
  split at hname
  · cases hname
  rename_i last hreach
  obtain ⟨there, hwalk, hsound, hpath, hentity, hserved⟩ := walk_ok (sound_root h) hreach
  split at hname
  · cases hname
  rename_i found hcolumn
  cases hname
  refine ⟨⟨⟨⟨there.qualifier, column.name⟩, column.type⟩, entry.path, there.pending⟩, ?_, rfl,
    hsound.planned, ?_, ?_⟩
  · unfold resolve
    simp only [hentry, hwalk, hentity, hcolumn]
  · simpa [root] using hserved
  · intro used hused
    have hqualifier := hsound.planned.qualifier?_eq hused hsound.stands
    have hroot : there.path = entry.path := by simpa [root] using hpath
    rw [hroot] at hqualifier
    simp [field?, hdestination, hqualifier, Except.toOption]

end Scope

/-! ### A name, in a statement under construction -/

namespace Draft

/-- The joins of a draft, and the entities listed as joined, are those of a plan. -/
structure Follows (scope : Scope) (plan : List PendingJoin) (draft : Draft) : Prop where
  planned : scope.Planned plan
  joined : draft.joined = plan.map PendingJoin.joined
  joins : draft.select.joins = plan.map PendingJoin.join

variable {scope : Scope} {plan : List PendingJoin} {draft : Draft}

theorem follows_allOf (scope : Scope) (table : String) :
    (Draft.start (.allOf table)).Follows scope [] :=
  ⟨.nil, rfl, rfl⟩

/-- Only the joins of the statement matter to the plan that a draft follows. -/
theorem Follows.of_joins_eq {other : Draft} (h : draft.Follows scope plan)
    (hjoined : other.joined = draft.joined) (hjoins : other.select.joins = draft.select.joins) :
    other.Follows scope plan :=
  ⟨h.planned, hjoined.trans h.joined, hjoins.trans h.joins⟩

/-- A name without a destination fails to resolve, with the same fault. -/
theorem Follows.resolve_error {name : String} {fault : NameFault} (h : draft.Follows scope plan)
    (hname : scope.destination name = .error fault) :
    scope.resolve draft.joined name = .error fault := by
  rw [h.joined]
  exact h.planned.resolve_error hname

/--
A name with a destination resolves to the column there.  Committing the resolution
serves the beginnings of the path that were not served yet, and the field is the one
that the served paths, or any longer list that begins with them, determine.
-/
theorem Follows.resolve_ok {name : String} {path : List String} {column : Column}
    (h : draft.Follows scope plan) (hname : scope.destination name = .ok (path, column)) :
    ∃ resolution, scope.resolve draft.joined name = .ok resolution ∧
      (draft.commit resolution).Follows scope (plan ++ resolution.pending) ∧
      pathsOf (plan ++ resolution.pending) = (pathsOf plan ++ beginnings path).eraseDups ∧
      ∀ used, pathsOf (plan ++ resolution.pending) <+: used →
        scope.field? used name = some resolution.field := by
  rw [h.joined]
  obtain ⟨resolution, hresolve, -, hplanned, hpaths, hfield⟩ := h.planned.resolve_ok hname
  refine ⟨resolution, hresolve, ?_, hpaths, hfield⟩
  exact ⟨hplanned, by simp [commit, h.joined], by simp [commit, h.joins]⟩

end Draft

end FilterSelect
