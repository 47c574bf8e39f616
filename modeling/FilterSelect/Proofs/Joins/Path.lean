/-
Paths of relationships, and the joins they need, without any state.

A logical name is bound to a path and to a column of the entity at the path's end.
Where a path leads depends on the schema alone, and so does the column of a name:
`reach` and `destination` look neither at a statement nor at what has been joined
into one.  They are what resolving a name is measured against.

A path needs a join for each of its non-empty beginnings.  The paths that a list of
names uses are therefore all beginnings of all their paths, and since a beginning
that occurs twice is joined once, each of them counts where it first occurs.  Its
place among the used paths numbers its join, and with the number the alias is known:
`join?` writes down each join from the list of used paths alone.
-/
import FilterSelect.Resolution
import Mathlib.Data.List.Infix
import Mathlib.Data.List.Nodup

namespace FilterSelect

/-! ### Where paths lead

A path is followed segment by segment through the schema, and the first segment that leads
nowhere is reported.
-/

namespace Scope

/-- The entity at the end of a path that starts at an entity. -/
def reach (scope : Scope) : Entity → List String → Except NameFault Entity
  | entity, [] => .ok entity
  | entity, segment :: rest =>
    match scope.follow entity segment with
    | .error fault => .error fault
    | .ok (_, target) => scope.reach target rest

/-- The path of a logical name and the column at its end. -/
def destination (scope : Scope) (name : String) : Except NameFault (List String × Column) :=
  match scope.entry name with
  | .error fault => .error fault
  | .ok entry =>
    match scope.reach scope.model entry.path with
    | .error fault => .error fault
    | .ok last =>
      match last.column? entry.column with
      | none => .error (.unknownColumn entry.column last.name)
      | some column => .ok (entry.path, column)

variable {scope : Scope}

theorem reach_append (entity : Entity) (path more : List String) :
    scope.reach entity (path ++ more) =
      match scope.reach entity path with
      | .error fault => .error fault
      | .ok near => scope.reach near more := by
  induction path generalizing entity with
  | nil => rfl
  | cons segment rest ih =>
      rw [List.cons_append, reach, reach]
      cases scope.follow entity segment with
      | error fault => rfl
      | ok link => exact ih link.2

/-- A path and one segment more leads where the segment leads from the path's end. -/
theorem reach_concat {entity near : Entity} {path : List String} (segment : String)
    (h : scope.reach entity path = .ok near) :
    scope.reach entity (path ++ [segment]) = (scope.follow near segment).map Prod.snd := by
  rw [reach_append, h]
  show scope.reach near [segment] = _
  rw [reach]
  cases scope.follow near segment <;> rfl

theorem find?_of_follow {entity target : Entity} {segment : String} {relationship : Relationship}
    (h : scope.follow entity segment = .ok (relationship, target)) :
    scope.schema.find? target.name = some target := by
  unfold follow at h
  split at h
  · cases h
  · split at h
    · cases h
    · rename_i found
      cases h
      rw [Schema.name_of_find? found, found]

end Scope

/-! ### The beginnings of a path -/

/-- The non-empty beginnings of a path, shorter ones first. -/
def beginnings (path : List String) : List (List String) :=
  path.inits.tail

@[simp] theorem beginnings_nil : beginnings [] = [] := rfl

theorem beginnings_cons (segment : String) (rest : List String) :
    beginnings (segment :: rest) = [segment] :: (beginnings rest).map (segment :: ·) := by
  cases rest <;> simp [beginnings]

/-- The beginnings of a path are its prefixes but for the empty one. -/
theorem mem_beginnings {path beginning : List String} :
    beginning ∈ beginnings path ↔ beginning ≠ [] ∧ beginning <+: path := by
  have hinits : path.inits = [] :: beginnings path := by cases path <;> simp [beginnings]
  have hnil : [] ∉ beginnings path := by
    cases path with
    | nil => simp
    | cons segment rest => simp [beginnings_cons]
  constructor
  · intro h
    refine ⟨?_, ?_⟩
    · rintro rfl
      exact hnil h
    · rw [← List.mem_inits, hinits]
      exact List.mem_cons_of_mem _ h
  · rintro ⟨hne, hprefix⟩
    rw [← List.mem_inits, hinits] at hprefix
    exact (List.mem_cons.mp hprefix).resolve_left hne

theorem self_mem_beginnings {path : List String} (h : path ≠ []) : path ∈ beginnings path :=
  mem_beginnings.mpr ⟨h, List.prefix_refl path⟩

theorem nodup_beginnings (path : List String) : (beginnings path).Nodup := by
  induction path with
  | nil => simp
  | cons segment rest ih =>
      rw [beginnings_cons, List.nodup_cons]
      refine ⟨?_, List.Nodup.map List.cons_injective ih⟩
      intro hmem
      obtain ⟨beginning, hbeginning, hcons⟩ := List.mem_map.mp hmem
      have hempty : beginning = [] := (List.cons.inj hcons).2
      exact (mem_beginnings.mp hbeginning).1 hempty

/-! ### First occurrences

A list that grows keeps its first occurrences in their places, so what is numbered by them is
numbered once and for all.
-/

section FirstOccurrences

variable {α : Type} [BEq α] [LawfulBEq α]

theorem eraseDups_append_singleton (used : List α) (a : α) :
    (used ++ [a]).eraseDups = if a ∈ used then used.eraseDups else used.eraseDups ++ [a] := by
  rw [List.eraseDups_append]
  by_cases h : a ∈ used <;> simp [List.removeAll, List.eraseDups_cons, h]

private theorem nodup_eraseDups (l : List α) : l.eraseDups.Nodup := by
  induction l using List.reverseRecOn with
  | nil => simp
  | append_singleton used a ih =>
      rw [eraseDups_append_singleton]
      split
      · exact ih
      · rename_i h
        rw [List.nodup_append]
        refine ⟨ih, by simp, ?_⟩
        rintro x hx y hy rfl
        rw [List.mem_singleton.mp hy] at hx
        exact h (List.mem_eraseDups.mp hx)

theorem eraseDups_of_nodup {l : List α} (h : l.Nodup) : l.eraseDups = l := by
  induction l using List.reverseRecOn with
  | nil => rfl
  | append_singleton used a ih =>
      obtain ⟨hused, -, hdisjoint⟩ := List.nodup_append.mp h
      have hnew : a ∉ used := fun ha => hdisjoint a ha a (List.mem_singleton_self a) rfl
      rw [eraseDups_append_singleton, if_neg hnew, ih hused]

/-- What is dropped from a list before others are added would have been dropped after. -/
theorem eraseDups_eraseDups_append (used more : List α) :
    (used.eraseDups ++ more).eraseDups = (used ++ more).eraseDups := by
  induction more using List.reverseRecOn with
  | nil =>
      rw [List.append_nil, List.append_nil]
      exact eraseDups_of_nodup (nodup_eraseDups used)
  | append_singleton more a ih =>
      rw [← List.append_assoc, ← List.append_assoc, eraseDups_append_singleton,
        eraseDups_append_singleton, ih]
      simp

theorem eraseDups_append_of_subset {used more : List α} (h : more ⊆ used) :
    (used ++ more).eraseDups = used.eraseDups := by
  have hnone : more.removeAll used = [] := by
    rw [List.removeAll, List.filter_eq_nil_iff]
    intro a ha
    simp [h ha]
  rw [List.eraseDups_append, hnone, List.eraseDups_nil, List.append_nil]

theorem eraseDups_prefix_append (used more : List α) :
    used.eraseDups <+: (used ++ more).eraseDups := by
  rw [List.eraseDups_append]
  exact List.prefix_append _ _

end FirstOccurrences

/-! ### The paths that names use -/

namespace Scope

/-- The path of a logical name; a name without an entry has none to follow. -/
def pathOf (scope : Scope) (name : String) : List String :=
  match scope.entry name with
  | .ok entry => entry.path
  | .error _ => []

/-- The beginnings of the paths of some names, name by name. -/
def visits (scope : Scope) (names : List String) : List (List String) :=
  names.flatMap fun name => beginnings (scope.pathOf name)

/-- The beginnings of the paths of some names, each where it first occurs. -/
def usedPaths (scope : Scope) (names : List String) : List (List String) :=
  (scope.visits names).eraseDups

variable {scope : Scope}

theorem pathOf_of_destination {name : String} {path : List String} {column : Column}
    (h : scope.destination name = .ok (path, column)) : scope.pathOf name = path := by
  unfold destination at h
  unfold pathOf
  split at h
  · cases h
  · rename_i entry hentry
    rw [hentry]
    split at h
    · cases h
    · split at h <;> cases h
      rfl

/-- A destination is a column of the entity that its path leads to. -/
theorem reach_of_destination {name : String} {path : List String} {column : Column}
    (h : scope.destination name = .ok (path, column)) :
    ∃ last, scope.reach scope.model path = .ok last ∧
      last.column? column.name = some column := by
  unfold destination at h
  split at h
  · cases h
  · rename_i entry hentry
    split at h
    · cases h
    · rename_i last hreach
      split at h <;> cases h
      rename_i hcolumn
      refine ⟨last, hreach, ?_⟩
      rw [Entity.name_of_column? hcolumn]
      exact hcolumn

@[simp] theorem visits_nil : scope.visits [] = [] := rfl

@[simp] theorem visits_singleton (name : String) :
    scope.visits [name] = beginnings (scope.pathOf name) := by
  simp [visits]

@[simp] theorem visits_append (names more : List String) :
    scope.visits (names ++ more) = scope.visits names ++ scope.visits more :=
  List.flatMap_append

theorem mem_usedPaths_iff {names : List String} {path : List String} :
    path ∈ scope.usedPaths names ↔ ∃ name ∈ names, path ∈ beginnings (scope.pathOf name) := by
  rw [usedPaths, List.mem_eraseDups, visits, List.mem_flatMap]

theorem mem_usedPaths {names : List String} {name : String} {path : List String} {column : Column}
    (hname : name ∈ names) (h : scope.destination name = .ok (path, column)) (hpath : path ≠ []) :
    path ∈ scope.usedPaths names := by
  rw [mem_usedPaths_iff]
  refine ⟨name, hname, ?_⟩
  rw [pathOf_of_destination h]
  exact self_mem_beginnings hpath

/-! ### The joins of the used paths

Each join is written down from the list of used paths alone: its number is the place of its
path, and its base is what stands for the path without its last segment.
-/

/-- The relationship that the last segment of a path follows, and the entity it leads to. -/
def link? (scope : Scope) (path : List String) : Option (Relationship × Entity) :=
  match path.getLast?, scope.reach scope.model path.dropLast with
  | some segment, .ok near => (scope.follow near segment).toOption
  | _, _ => none

/-- The root table for the empty path, and for any other the alias of its join. -/
def qualifier? (scope : Scope) (used : List (List String)) (path : List String) : Option String :=
  if path = [] then some scope.model.table
  else (scope.link? path).map fun link => aliasOf link.2.table (used.idxOf path + 1)

/--
The join of a path: the table it leads to under an alias with the number of the
path, matched with what stands for the path that is one segment shorter.
-/
def join? (scope : Scope) (used : List (List String)) (path : List String) : Option Join := do
  let (relationship, target) ← scope.link? path
  let base ← scope.qualifier? used path.dropLast
  some ⟨base, relationship.localColumn, target.table, aliasOf target.table (used.idxOf path + 1),
    relationship.remoteColumn⟩

/-- The column of a logical name, read from what stands for its path. -/
def field? (scope : Scope) (used : List (List String)) (name : String) : Option Field := do
  let (path, column) ← (scope.destination name).toOption
  let qualifier ← scope.qualifier? used path
  some ⟨⟨qualifier, column.name⟩, column.type⟩

/-- A field is the destination of its name, read from what stands for the path. -/
theorem destination_of_field? {used : List (List String)} {name : String} {field : Field}
    (h : scope.field? used name = some field) :
    ∃ path column, scope.destination name = .ok (path, column) ∧
      scope.qualifier? used path = some field.qualifier ∧
      column = ⟨field.column, field.type⟩ := by
  simp only [field?, bind, Option.bind_eq_some_iff] at h
  obtain ⟨⟨path, column⟩, hname, qualifier, hqualifier, hfield⟩ := h
  cases hfield
  cases hdestination : scope.destination name with
  | error fault =>
      rw [hdestination] at hname
      cases hname
  | ok target =>
      rw [hdestination] at hname
      cases hname
      exact ⟨path, column, rfl, hqualifier, rfl⟩

theorem link?_concat {before : List String} {near : Entity} (segment : String)
    (h : scope.reach scope.model before = .ok near) :
    scope.link? (before ++ [segment]) = (scope.follow near segment).toOption := by
  simp [link?, h]

theorem qualifier?_of_join? {used : List (List String)} {path : List String} {join : Join}
    (h : scope.join? used path = some join) :
    scope.qualifier? used path = some join.aliasName := by
  simp only [join?, bind, Option.bind_eq_some_iff] at h
  obtain ⟨⟨relationship, target⟩, hlink, base, -, hjoin⟩ := h
  have hne : path ≠ [] := by
    rintro rfl
    simp [link?] at hlink
  rw [qualifier?, if_neg hne, hlink, ← Option.some.inj hjoin]
  rfl

end Scope

end FilterSelect
