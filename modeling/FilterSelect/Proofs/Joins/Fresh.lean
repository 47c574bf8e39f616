/-
Resolving a name where entities have been joined, and resolving it afresh.

Where a beginning of a path is listed as joined, resolving jumps to the entity that is
listed instead of following the schema.  So the two could part: the list could know a
path that the schema does not, name another entity, or leave out a join that is needed.
`SameOutcome` says that none of this happens.  The faults are the same, and so are the
path and the column, and the joins still to be made are those of the fresh resolution
whose path is not listed, called by what they are called in this statement.

It holds of every list that is a plan, because where a path leads depends on the schema
alone (`destination`), and of every list that attempts can come to, because these are
plans.
-/
import FilterSelect.Proofs.Joins.Attempts

namespace FilterSelect

/-- What a pending join is, apart from what it and its base are called in a statement. -/
structure Hop where
  path : List String
  entity : String
  table : String
  localColumn : String
  remoteColumn : String
deriving DecidableEq, Repr

/-- The hop that a pending join makes. -/
def PendingJoin.hop (p : PendingJoin) : Hop :=
  ⟨p.path, p.entity, p.join.table, p.join.localColumn, p.join.remoteColumn⟩

namespace Scope

/-- The hop that the last segment of a path makes. -/
def hop? (scope : Scope) (path : List String) : Option Hop :=
  (scope.link? path).map fun link =>
    ⟨path, link.2.name, link.2.table, link.1.localColumn, link.1.remoteColumn⟩

/-- What stands for a path where entities are joined: the root table, or the listed alias. -/
def nameOf? (scope : Scope) (joined : List JoinedEntity) (path : List String) : Option String :=
  if path = [] then some scope.model.table
  else (findJoined? joined path).map JoinedEntity.aliasName

/-- A resolution where entities are joined agrees with a fresh one. -/
structure Agrees (scope : Scope) (joined : List JoinedEntity) (fresh cached : Resolution) :
    Prop where
  path : cached.path = fresh.path
  column : cached.field.column = fresh.field.column
  type : cached.field.type = fresh.field.type
  /-- Afresh, there is a join for every beginning of the path. -/
  fresh_paths : fresh.pending.map PendingJoin.path = beginnings fresh.path
  /-- Where entities are joined, there is one for each beginning that is not listed. -/
  hops : cached.pending.map PendingJoin.hop =
    (fresh.pending.filter fun p => (findJoined? joined p.path).isNone).map PendingJoin.hop
  /-- Each join starts from what stands for the path one segment shorter. -/
  bases : ∀ p ∈ cached.pending,
    scope.nameOf? (joined ++ cached.pending.map PendingJoin.joined) p.path.dropLast =
      some p.join.base
  /-- The column is read from what stands for the whole path. -/
  qualifier : scope.nameOf? (joined ++ cached.pending.map PendingJoin.joined) cached.path =
    some cached.field.qualifier

/--
A name fares as it does afresh: it fails with the same fault, which is never that a
joined entity is unknown, or the resolutions agree.
-/
def SameOutcome (scope : Scope) (joined : List JoinedEntity) :
    Except NameFault Resolution → Except NameFault Resolution → Prop
  | .ok fresh, .ok cached => scope.Agrees joined fresh cached
  | .error fault, .error fault' => fault' = fault ∧ ∀ entity, fault ≠ .unknownEntity entity
  | _, _ => False

variable {scope : Scope} {plan : List PendingJoin} {name : String}

/-! ### Faults

A fault is met at a segment, and it is about the entity in front of that segment.  Which
entities have been joined plays no part in it.
-/

private theorem follow_error {entity : Entity} {segment : String} {fault : NameFault}
    (h : scope.follow entity segment = .error fault) :
    fault = .notARelationship segment entity.name := by
  unfold follow at h
  split at h
  · exact (Except.error.inj h).symm
  · split at h
    · exact (Except.error.inj h).symm
    · cases h

private theorem reach_error {entity : Entity} {path : List String} {fault : NameFault}
    (h : scope.reach entity path = .error fault) :
    ∃ segment near, fault = .notARelationship segment near := by
  induction path generalizing entity with
  | nil => cases h
  | cons segment rest ih =>
      rw [reach] at h
      cases hfollow : scope.follow entity segment with
      | error fault' =>
          rw [hfollow] at h
          rw [← Except.error.inj h]
          exact ⟨segment, entity.name, follow_error hfollow⟩
      | ok link =>
          rw [hfollow] at h
          exact ih h

private theorem ne_unknownEntity_of_destination {fault : NameFault}
    (h : scope.destination name = .error fault) (entity : String) :
    fault ≠ .unknownEntity entity := by
  rintro rfl
  unfold destination at h
  split at h
  · rename_i hentry
    unfold entry at hentry
    split at hentry
    · cases hentry
    · cases h
      cases hentry
  · split at h
    · rename_i hreach
      cases h
      obtain ⟨segment, near, hfault⟩ := reach_error hreach
      cases hfault
    · split at h <;> cases h

/-! ### Pending joins

What is called differently in two statements is the alias of a join and its base.  All else is
a hop, and a hop is determined by the path.
-/

theorem Planned.hop?_eq (h : scope.Planned plan) :
    ∀ p ∈ plan, scope.hop? p.path = some p.hop := by
  intro p hp
  obtain ⟨relationship, target, hlink, -, hentity, htable, hlocal, hremote⟩ := h.link?_eq p hp
  simp [hop?, hlink, PendingJoin.hop, hentity, htable, hlocal, hremote]

/-- Plans with the same paths, in whole or in part, make the same hops there. -/
theorem Planned.map_hop_eq {other pending pending' : List PendingJoin} (h : scope.Planned plan)
    (h' : scope.Planned other) (hpending : pending ⊆ plan) (hpending' : pending' ⊆ other)
    (hpaths : pathsOf pending = pathsOf pending') :
    pending.map PendingJoin.hop = pending'.map PendingJoin.hop := by
  have hleft : pending.map (fun p => some p.hop) = (pathsOf pending).map scope.hop? := by
    rw [pathsOf, List.map_map]
    exact List.map_congr_left fun p hp => (h.hop?_eq p (hpending hp)).symm
  have hright : pending'.map (fun p => some p.hop) = (pathsOf pending').map scope.hop? := by
    rw [pathsOf, List.map_map]
    exact List.map_congr_left fun p hp => (h'.hop?_eq p (hpending' hp)).symm
  have hsome :
      (pending.map PendingJoin.hop).map some = (pending'.map PendingJoin.hop).map some := by
    rw [List.map_map, List.map_map]
    exact hleft.trans (hpaths ▸ hright.symm)
  exact List.map_injective_iff.mpr (fun _ _ => Option.some.inj) hsome

private theorem isNone_findJoined? (plan : List PendingJoin) (path : List String) :
    (findJoined? (plan.map PendingJoin.joined) path).isNone = !decide (path ∈ pathsOf plan) := by
  rw [findJoined?_map, Option.isNone_map, Bool.eq_iff_iff]
  simp [pathsOf]

theorem Planned.pathsOf_pending {pending : List PendingJoin} {path : List String}
    (h : scope.Planned plan)
    (hpaths : pathsOf (plan ++ pending) = (pathsOf plan ++ beginnings path).eraseDups) :
    pathsOf pending =
      (beginnings path).filter fun beginning => !decide (beginning ∈ pathsOf plan) := by
  have hfresh : ((beginnings path).removeAll (pathsOf plan)).Nodup :=
    (nodup_beginnings path).filter _
  rw [List.eraseDups_append, eraseDups_of_nodup h.nodup, eraseDups_of_nodup hfresh, pathsOf_append]
    at hpaths
  rw [List.append_cancel_left hpaths]
  simp [List.removeAll]

theorem Planned.nameOf?_eq {path : List String} {entity : Entity} {qualifier : String}
    (h : scope.Planned plan) (hs : scope.Stands plan path entity qualifier) :
    scope.nameOf? (plan.map PendingJoin.joined) path = some qualifier := by
  cases hs with
  | root => simp [nameOf?]
  | @joined p _ hp _ =>
      have hne : p.path ≠ [] := by
        intro hnil
        exact h.path_ne_nil (hnil ▸ List.mem_map_of_mem hp)
      rw [nameOf?, if_neg hne, findJoined?_map]
      cases hfind : plan.find? (fun q => q.path == p.path) with
      | none =>
          have hmissing := List.find?_eq_none.mp hfind p hp
          simp at hmissing
      | some q =>
          have hpath : q.path = p.path := by simpa using List.find?_some hfind
          have hq := h.join?_eq (List.prefix_refl _) q (List.mem_of_find?_eq_some hfind)
          rw [hpath, h.join?_eq (List.prefix_refl _) p hp] at hq
          rw [Option.some.inj hq]
          rfl

/-- The fresh joins whose paths a plan serves already are those that resolving in it leaves out. -/
theorem Planned.map_hop_filter {fresh pending : List PendingJoin} {path : List String}
    (h : scope.Planned plan) (hfresh : scope.Planned fresh)
    (hpending : scope.Planned (plan ++ pending)) (hpaths : pathsOf fresh = beginnings path)
    (hpaths' : pathsOf (plan ++ pending) = (pathsOf plan ++ beginnings path).eraseDups) :
    pending.map PendingJoin.hop =
      (fresh.filter fun p => (findJoined? (plan.map PendingJoin.joined) p.path).isNone).map
        PendingJoin.hop := by
  refine hpending.map_hop_eq hfresh (List.subset_append_right _ _) (List.filter_subset_self _) ?_
  rw [h.pathsOf_pending hpaths', ← hpaths]
  simp only [isNone_findJoined?]
  exact List.filter_map

/-! ### Agreement

Resolving afresh plans a join for every beginning of the path.  In a plan the beginnings that
it serves are left out, and the rest comes in the same order.
-/

theorem Planned.agrees {path : List String} {column : Column} (h : scope.Planned plan)
    (hname : scope.destination name = .ok (path, column)) :
    ∃ fresh cached, scope.resolve [] name = .ok fresh ∧
      scope.resolve (plan.map PendingJoin.joined) name = .ok cached ∧
      scope.Agrees (plan.map PendingJoin.joined) fresh cached := by
  obtain ⟨fresh, hfresh, hpath, hplan, hserved, hfield⟩ := Planned.nil.resolve_ok hname
  obtain ⟨cached, hcached, hpath', hplan', hserved', hfield'⟩ := h.resolve_ok hname
  refine ⟨fresh, cached, hfresh, hcached, ?_⟩
  -- both fields are the column that the name leads to, under their own qualifiers
  obtain ⟨_, _, hname₁, -, hcolumn⟩ := destination_of_field? (hfield _ (List.prefix_refl _))
  obtain ⟨_, _, hname₂, hqualifier, hcolumn'⟩ :=
    destination_of_field? (hfield' _ (List.prefix_refl _))
  cases hname.symm.trans hname₁
  cases hname.symm.trans hname₂
  have hsame : Column.mk cached.field.column cached.field.type =
      ⟨fresh.field.column, fresh.field.type⟩ := hcolumn'.symm.trans hcolumn
  have hpaths : pathsOf fresh.pending = beginnings path :=
    hserved.trans (eraseDups_of_nodup (nodup_beginnings path))
  have hlisted : plan.map PendingJoin.joined ++ cached.pending.map PendingJoin.joined =
      (plan ++ cached.pending).map PendingJoin.joined := by rw [List.map_append]
  refine ⟨hpath'.trans hpath.symm, congrArg Column.name hsame, congrArg Column.type hsame,
    hpath ▸ hpaths, h.map_hop_filter hplan hplan' hpaths hserved', ?_, ?_⟩
  · intro p hp
    obtain ⟨near, hbase⟩ := hplan'.base_stands p (List.mem_append_right _ hp)
    rw [hlisted]
    exact hplan'.nameOf?_eq hbase
  · have hmem : path = [] ∨ path ∈ pathsOf (plan ++ cached.pending) := by
      by_cases hnil : path = []
      · exact Or.inl hnil
      · rw [hserved', List.mem_eraseDups]
        exact Or.inr (List.mem_append_right _ (self_mem_beginnings hnil))
    obtain ⟨entity, hs⟩ := hplan'.stands_qualifier? hmem hqualifier
    rw [hlisted, hpath']
    exact hplan'.nameOf?_eq hs

theorem Planned.sameOutcome (h : scope.Planned plan) (name : String) :
    scope.SameOutcome (plan.map PendingJoin.joined) (scope.resolve [] name)
      (scope.resolve (plan.map PendingJoin.joined) name) := by
  cases hname : scope.destination name with
  | error fault =>
      have hfresh : scope.resolve [] name = .error fault := Planned.nil.resolve_error hname
      rw [hfresh, h.resolve_error hname]
      exact ⟨rfl, ne_unknownEntity_of_destination hname⟩
  | ok target =>
      obtain ⟨path, column⟩ := target
      obtain ⟨fresh, cached, hfresh, hcached, hagrees⟩ := h.agrees hname
      rw [hfresh, hcached]
      exact hagrees

end Scope

namespace Transcript

/--
**After any attempts, successful or not, every name resolves as it does afresh.**  It fails
with the same fault, or comes to the same column by the same path and lacks those joins
of the fresh resolution whose paths are not listed as joined.
-/
theorem sameOutcome_ofNames (scope : Scope) (base : Select) (names : List String) (name : String) :
    scope.SameOutcome (ofNames scope base names).draft.joined (scope.resolve [] name)
      (scope.resolve (ofNames scope base names).draft.joined name) := by
  obtain ⟨plan, h⟩ := follows_ofNames scope base names
  rw [h.joined]
  exact h.planned.sameOutcome name

end Transcript

end FilterSelect
