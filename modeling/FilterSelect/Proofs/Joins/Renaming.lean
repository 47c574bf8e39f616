/-
The order in which names are used matters to aliases alone.

An alias has the number of its join, so using names in another order changes the aliases
of a statement, the order of its joins, and which name brings in a path that several
names share.  `Mirrors` says that nothing else changes: path by path, both statements
join the same table on the same columns, each under its own names, and every field is
the same column of what stands for its path.

Whether the names of the one statement can be exchanged for those of the other is a
further question.  Aliases are distinct, but the root table keeps its name, and where an
alias has that name too, the name would have to be exchanged and kept at once.
`exists_renames_iff` says that this is the only obstacle: statements are the same up to a
renaming if and only if the same paths have the root table's name in both.
-/
import FilterSelect.Proofs.Joins.Fresh
import FilterSelect.Proofs.Joins.Qualifiers
import Mathlib.Data.Set.Function

namespace FilterSelect

/-- A join with its alias and its base under other names. -/
def Join.rename (f : String → String) (j : Join) : Join :=
  { j with base := f j.base, aliasName := f j.aliasName }

/-- A field with its table or alias under another name. -/
def Field.rename (f : String → String) (field : Field) : Field :=
  { field with qualifier := f field.qualifier }

namespace Transcript

/-- What stands for a path in a statement: the root table, or the alias listed for the path. -/
def nameOf? (scope : Scope) (t : Transcript) (path : List String) : Option String :=
  scope.nameOf? t.draft.joined path

/-- A join brings in what stands for a path, from what stands for the path one segment shorter. -/
structure Serves (scope : Scope) (t : Transcript) (path : List String) (j : Join) : Prop where
  mem : j ∈ t.draft.select.joins
  name : t.nameOf? scope path = some j.aliasName
  base : t.nameOf? scope path.dropLast = some j.base

/-- Two joins of two statements serve one path and differ in nothing but names. -/
structure Match (scope : Scope) (t t' : Transcript) (path : List String) (j j' : Join) : Prop where
  left : t.Serves scope path j
  right : t'.Serves scope path j'
  table : j.table = j'.table
  localColumn : j.localColumn = j'.localColumn
  remoteColumn : j.remoteColumn = j'.remoteColumn

/-- Two statements join the same by the same paths, each under its own names. -/
structure Mirrors (scope : Scope) (t t' : Transcript) : Prop where
  paths : ∀ path, path ∈ t.paths ↔ path ∈ t'.paths
  joins : ∀ j ∈ t.draft.select.joins, ∃ path j', t.Match scope t' path j j'
  joins' : ∀ j' ∈ t'.draft.select.joins, ∃ path j, t.Match scope t' path j j'
  /-- The fields of a name are one column, read from what stands for the path of the name. -/
  fields : ∀ name field field', (name, field) ∈ t.applied → (name, field') ∈ t'.applied →
    field.column = field'.column ∧ field.type = field'.type ∧
      t.nameOf? scope (scope.pathOf name) = some field.qualifier ∧
      t'.nameOf? scope (scope.pathOf name) = some field'.qualifier

/-- Exchanging the names of one statement for those of another carries its joins and fields over. -/
structure Renames (scope : Scope) (t t' : Transcript) (rename : String → String) : Prop where
  bijOn : Set.BijOn rename {name | name ∈ t.draft.select.fromNames}
    {name | name ∈ t'.draft.select.fromNames}
  root : rename scope.model.table = scope.model.table
  /-- The alias of a path becomes the alias of that path. -/
  aliases : ∀ path ∈ t.paths, ∀ name name', t.nameOf? scope path = some name →
    t'.nameOf? scope path = some name' → rename name = name'
  joins : Join.rename rename '' {j | j ∈ t.draft.select.joins} = {j | j ∈ t'.draft.select.joins}
  fields : ∀ name field field', (name, field) ∈ t.applied → (name, field') ∈ t'.applied →
    field.rename rename = field'

variable {scope : Scope} {base : Select} {plan plan' : List PendingJoin} {t t' : Transcript}

/-! ### Names that are applied -/

private theorem names_attempt {name : String} {path : List String} {column : Column}
    (h : t.Follows scope base plan) (hname : scope.destination name = .ok (path, column)) :
    (t.attempt scope name).names = t.names ++ [name] := by
  obtain ⟨resolution, hresolve, -⟩ := h.planned.resolve_ok hname
  rw [attempt, Draft.attempt_eq, Draft.apply, h.joined, hresolve]
  simp [names]

theorem names_ofNames (scope : Scope) (base : Select) {names : List String}
    (hnames : ∀ name ∈ names, ∃ target, scope.destination name = .ok target) :
    (ofNames scope base names).names = names := by
  induction names using List.reverseRecOn with
  | nil => rfl
  | append_singleton earlier name ih =>
      obtain ⟨plan, h⟩ := follows_ofNames scope base earlier
      obtain ⟨⟨path, column⟩, hname⟩ := hnames name (by simp)
      have hearlier : (ofNames scope base earlier).names = earlier :=
        ih fun other hother => hnames other (List.mem_append_left _ hother)
      have hstep : ofNames scope base (earlier ++ [name]) =
          (ofNames scope base earlier).attempt scope name := by
        simp [ofNames]
      rw [hstep, names_attempt h hname, hearlier]

/-- A name that resolves afresh has a destination. -/
theorem destination_of_resolve {name : String} {resolution : Resolution}
    (h : scope.resolve [] name = .ok resolution) :
    ∃ target, scope.destination name = .ok target := by
  cases hname : scope.destination name with
  | ok target => exact ⟨target, rfl⟩
  | error fault =>
      have hfails : scope.resolve [] name = .error fault :=
        Scope.Planned.nil.resolve_error hname
      rw [h] at hfails
      cases hfails

/-! ### What stands for a path

A name of the FROM clause may stand for two paths, if an alias is called like the root table.
It never stands for more, since aliases differ among themselves.
-/

theorem Follows.nameOf?_eq {path : List String} {entity : Entity} {qualifier : String}
    (h : t.Follows scope base plan) (hs : scope.Stands plan path entity qualifier) :
    t.nameOf? scope path = some qualifier := by
  rw [nameOf?, h.joined]
  exact h.planned.nameOf?_eq hs

private theorem Follows.nameOf?_path {p : PendingJoin} (h : t.Follows scope base plan)
    (hp : p ∈ plan) :
    t.nameOf? scope p.path = some p.join.aliasName := by
  obtain ⟨target, htarget, -⟩ := h.planned.leads p hp
  exact h.nameOf?_eq (.joined hp htarget)

theorem Follows.nameOf?_eq_some {path : List String} {name : String}
    (h : t.Follows scope base plan) (hname : t.nameOf? scope path = some name) :
    (path = [] ∧ name = scope.model.table) ∨
      ∃ p ∈ plan, p.path = path ∧ p.join.aliasName = name := by
  rw [nameOf?, Scope.nameOf?] at hname
  split at hname
  · rename_i hnil
    exact Or.inl ⟨hnil, (Option.some.inj hname).symm⟩
  · rw [h.joined, Scope.findJoined?_map, Option.map_map, Option.map_eq_some_iff] at hname
    obtain ⟨p, hfind, halias⟩ := hname
    have hpath : p.path = path := by simpa using List.find?_some hfind
    exact Or.inr ⟨p, List.mem_of_find?_eq_some hfind, hpath, halias⟩

private theorem nameOf?_nil (scope : Scope) (t : Transcript) :
    t.nameOf? scope [] = some scope.model.table := by
  simp [nameOf?, Scope.nameOf?]

/-- The FROM clause lists what stands for the empty path and for the paths that are joined. -/
theorem Follows.mem_fromNames {name : String} (h : t.Follows scope base plan)
    (hbase : base.joins = []) (htable : base.table = scope.model.table) :
    name ∈ t.draft.select.fromNames ↔ ∃ path, t.nameOf? scope path = some name := by
  rw [h.fromNames_eq hbase, htable, List.mem_cons, List.mem_map]
  constructor
  · rintro (rfl | ⟨p, hp, rfl⟩)
    · exact ⟨[], nameOf?_nil scope t⟩
    · exact ⟨p.path, h.nameOf?_path hp⟩
  · rintro ⟨path, hname⟩
    rcases h.nameOf?_eq_some hname with ⟨-, hroot⟩ | ⟨p, hp, -, halias⟩
    · exact Or.inl hroot
    · exact Or.inr ⟨p, hp, halias⟩

theorem Follows.serves {p : PendingJoin} (h : t.Follows scope base plan)
    (hbase : base.joins = []) (hp : p ∈ plan) : t.Serves scope p.path p.join where
  mem := by
    rw [h.joins_eq hbase]
    exact List.mem_map_of_mem hp
  name := h.nameOf?_path hp
  base := by
    obtain ⟨near, hnear⟩ := h.planned.base_stands p hp
    exact h.nameOf?_eq hnear

/-! ### The same paths, joined in another order

The names that are applied are the same in both orders, so the paths that they use are the
same, and each of these is served by one join in either statement.
-/

private theorem hop_eq_of_path_eq {p p' : PendingJoin} (h : scope.Planned plan)
    (h' : scope.Planned plan') (hp : p ∈ plan) (hp' : p' ∈ plan') (hpath : p.path = p'.path) :
    p.hop = p'.hop := by
  have hhop := h.hop?_eq p hp
  rw [hpath, h'.hop?_eq p' hp'] at hhop
  exact (Option.some.inj hhop).symm

private theorem Follows.joins_match {p p' : PendingJoin} (h : t.Follows scope base plan)
    (h' : t'.Follows scope base plan') (hbase : base.joins = []) (hp : p ∈ plan) (hp' : p' ∈ plan')
    (hpath : p.path = p'.path) : t.Match scope t' p.path p.join p'.join := by
  have hhop := hop_eq_of_path_eq h.planned h'.planned hp hp' hpath
  have hserves := h'.serves hbase hp'
  rw [← hpath] at hserves
  exact ⟨h.serves hbase hp, hserves, congrArg Hop.table hhop, congrArg Hop.localColumn hhop,
    congrArg Hop.remoteColumn hhop⟩

private theorem Follows.exists_mem_plan {p : PendingJoin} (h : t.Follows scope base plan)
    (h' : t'.Follows scope base plan') (hpaths : ∀ path, path ∈ t.paths ↔ path ∈ t'.paths)
    (hp : p ∈ plan) : ∃ p' ∈ plan', p'.path = p.path := by
  have hlisted : p.path ∈ t.paths := by
    rw [h.paths_eq]
    exact List.mem_map_of_mem hp
  rw [hpaths, h'.paths_eq] at hlisted
  exact List.mem_map.mp hlisted

theorem Follows.mirrors (h : t.Follows scope base plan) (h' : t'.Follows scope base plan')
    (hbase : base.joins = []) (hpaths : ∀ path, path ∈ t.paths ↔ path ∈ t'.paths) :
    t.Mirrors scope t' where
  paths := hpaths
  joins := by
    intro j hj
    rw [h.joins_eq hbase] at hj
    obtain ⟨p, hp, rfl⟩ := List.mem_map.mp hj
    obtain ⟨p', hp', hpath⟩ := h.exists_mem_plan h' hpaths hp
    exact ⟨p.path, p'.join, h.joins_match h' hbase hp hp' hpath.symm⟩
  joins' := by
    intro j' hj'
    rw [h'.joins_eq hbase] at hj'
    obtain ⟨p', hp', rfl⟩ := List.mem_map.mp hj'
    obtain ⟨p, hp, hpath⟩ := h'.exists_mem_plan h (fun path => (hpaths path).symm) hp'
    exact ⟨p.path, p.join, h.joins_match h' hbase hp hp' hpath⟩
  fields := by
    intro name field field' hmem hmem'
    obtain ⟨entity, hs, -⟩ := h.stands hmem
    obtain ⟨entity', hs', -⟩ := h'.stands hmem'
    obtain ⟨path, column, hname, -, hcolumn⟩ :=
      Scope.destination_of_field? (h.fields name field hmem _ (List.prefix_refl _))
    obtain ⟨path', column', hname', -, hcolumn'⟩ :=
      Scope.destination_of_field? (h'.fields name field' hmem' _ (List.prefix_refl _))
    cases hname.symm.trans hname'
    have hsame : Column.mk field.column field.type = ⟨field'.column, field'.type⟩ :=
      hcolumn.symm.trans hcolumn'
    exact ⟨congrArg Column.name hsame, congrArg Column.type hsame, h.nameOf?_eq hs,
      h'.nameOf?_eq hs'⟩

/-! ### Exchanging names

A name is exchanged by way of a path that it stands for.  Where it stands for two paths, both
have to lead to one name of the other statement, and that is where the root table's name
matters.
-/

/-- What one statement calls by a name, as another calls it. -/
def counterpart (scope : Scope) (t t' : Transcript) (name : String) : String :=
  ((([] :: t.paths).find? fun path => t.nameOf? scope path = some name).bind
    (t'.nameOf? scope)).getD name

/-- Paths that one statement calls by one name, another calls by one name too. -/
theorem Follows.nameOf?_congr {path path' : List String} {name : String}
    (h : t.Follows scope base plan)
    (hroot : ∀ path ∈ t.paths, t.nameOf? scope path = some scope.model.table →
      t'.nameOf? scope path = some scope.model.table)
    (hname : t.nameOf? scope path = some name) (hname' : t.nameOf? scope path' = some name) :
    t'.nameOf? scope path = t'.nameOf? scope path' := by
  have hlisted : ∀ p ∈ plan, p.path ∈ t.paths := by
    intro p hp
    rw [h.paths_eq]
    exact List.mem_map_of_mem hp
  rcases h.nameOf?_eq_some hname with ⟨rfl, rfl⟩ | ⟨p, hp, rfl, rfl⟩
  · rcases h.nameOf?_eq_some hname' with ⟨rfl, -⟩ | ⟨q, hq, rfl, -⟩
    · rfl
    · rw [nameOf?_nil, hroot q.path (hlisted q hq) hname']
  · rcases h.nameOf?_eq_some hname' with ⟨rfl, halias⟩ | ⟨q, hq, rfl, halias⟩
    · rw [halias] at hname
      rw [nameOf?_nil, hroot p.path (hlisted p hp) hname]
    · rw [List.inj_on_of_nodup_map h.planned.nodup_aliases hq hp halias]

private theorem Follows.mem_of_nameOf? {path : List String} {name : String}
    (h : t.Follows scope base plan) (hname : t.nameOf? scope path = some name) :
    path ∈ [] :: t.paths := by
  rcases h.nameOf?_eq_some hname with ⟨rfl, -⟩ | ⟨p, hp, rfl, -⟩
  · exact List.mem_cons_self
  · rw [h.paths_eq]
    exact List.mem_cons_of_mem _ (List.mem_map_of_mem hp)

theorem Follows.counterpart_eq {path : List String} {name name' : String}
    (h : t.Follows scope base plan)
    (hroot : ∀ path ∈ t.paths, t.nameOf? scope path = some scope.model.table →
      t'.nameOf? scope path = some scope.model.table)
    (hname : t.nameOf? scope path = some name) (hname' : t'.nameOf? scope path = some name') :
    counterpart scope t t' name = name' := by
  unfold counterpart
  cases hfind : ([] :: t.paths).find? fun path => t.nameOf? scope path = some name with
  | none =>
      have hmissing := List.find?_eq_none.mp hfind path (h.mem_of_nameOf? hname)
      exact absurd hname (by simpa using hmissing)
  | some first =>
      have hfirst : t.nameOf? scope first = some name := by simpa using List.find?_some hfind
      rw [Option.bind_some, h.nameOf?_congr hroot hfirst hname, hname']
      rfl

/-- What one statement has a name for, another has one for that lists the same paths. -/
theorem Follows.exists_nameOf? {path : List String} {name : String}
    (h : t.Follows scope base plan) (h' : t'.Follows scope base plan')
    (hpaths : ∀ path, path ∈ t.paths ↔ path ∈ t'.paths) (hname : t.nameOf? scope path = some name) :
    ∃ name', t'.nameOf? scope path = some name' := by
  rcases h.nameOf?_eq_some hname with ⟨rfl, -⟩ | ⟨p, hp, rfl, -⟩
  · exact ⟨_, nameOf?_nil scope t'⟩
  · obtain ⟨p', hp', hpath⟩ := h.exists_mem_plan h' hpaths hp
    exact ⟨_, hpath ▸ h'.nameOf?_path hp'⟩

/-- The same paths have the root table's name in both statements. -/
def SameClashes (scope : Scope) (t t' : Transcript) : Prop :=
  ∀ path ∈ t.paths, t.nameOf? scope path = some scope.model.table ↔
    t'.nameOf? scope path = some scope.model.table

instance (scope : Scope) (t t' : Transcript) : Decidable (t.SameClashes scope t') :=
  inferInstanceAs (Decidable (∀ path ∈ t.paths, _ ↔ _))

section Exchange

variable (h : t.Follows scope base plan) (h' : t'.Follows scope base plan')
  (hbase : base.joins = []) (htable : base.table = scope.model.table)
  (hpaths : ∀ path, path ∈ t.paths ↔ path ∈ t'.paths)

include h h' hbase htable hpaths

theorem bijOn_counterpart (hclashes : t.SameClashes scope t') :
    Set.BijOn (counterpart scope t t') {name | name ∈ t.draft.select.fromNames}
      {name | name ∈ t'.draft.select.fromNames} := by
  have hforth : ∀ path ∈ t.paths, t.nameOf? scope path = some scope.model.table →
      t'.nameOf? scope path = some scope.model.table := fun path hpath => (hclashes path hpath).mp
  have hback : ∀ path ∈ t'.paths, t'.nameOf? scope path = some scope.model.table →
      t.nameOf? scope path = some scope.model.table :=
    fun path hpath => (hclashes path ((hpaths path).mpr hpath)).mpr
  refine ⟨?_, ?_, ?_⟩
  · intro name hname
    obtain ⟨path, hpath⟩ := (h.mem_fromNames hbase htable).mp hname
    obtain ⟨name', hpath'⟩ := h.exists_nameOf? h' hpaths hpath
    rw [h.counterpart_eq hforth hpath hpath']
    exact (h'.mem_fromNames hbase htable).mpr ⟨path, hpath'⟩
  · intro first hfirst second hsecond heq
    obtain ⟨path, hpath⟩ := (h.mem_fromNames hbase htable).mp hfirst
    obtain ⟨other, hother⟩ := (h.mem_fromNames hbase htable).mp hsecond
    obtain ⟨name', hpath'⟩ := h.exists_nameOf? h' hpaths hpath
    obtain ⟨other', hother'⟩ := h.exists_nameOf? h' hpaths hother
    rw [h.counterpart_eq hforth hpath hpath', h.counterpart_eq hforth hother hother'] at heq
    have hsame := h'.nameOf?_congr hback hpath' (heq ▸ hother')
    rw [hpath, hother] at hsame
    exact Option.some.inj hsame
  · intro name' hname'
    obtain ⟨path, hpath'⟩ := (h'.mem_fromNames hbase htable).mp hname'
    obtain ⟨name, hpath⟩ := h'.exists_nameOf? h (fun path => (hpaths path).symm) hpath'
    exact ⟨name, (h.mem_fromNames hbase htable).mpr ⟨path, hpath⟩,
      h.counterpart_eq hforth hpath hpath'⟩

theorem renames_counterpart (hclashes : t.SameClashes scope t') :
    t.Renames scope t' (counterpart scope t t') := by
  have hmirrors := h.mirrors h' hbase hpaths
  have heq : ∀ path name name', t.nameOf? scope path = some name →
      t'.nameOf? scope path = some name' → counterpart scope t t' name = name' :=
    fun path name name' => h.counterpart_eq fun path hpath => (hclashes path hpath).mp
  have hmatch : ∀ path j j', t.Match scope t' path j j' →
      j.rename (counterpart scope t t') = j' := by
    rintro path j j' ⟨hleft, hright, htable, hlocal, hremote⟩
    rw [Join.rename, heq _ _ _ hleft.name hright.name, heq _ _ _ hleft.base hright.base, htable,
      hlocal, hremote]
  refine ⟨bijOn_counterpart h h' hbase htable hpaths hclashes, ?_, ?_, ?_, ?_⟩
  · exact heq [] _ _ (nameOf?_nil scope t) (nameOf?_nil scope t')
  · exact fun path _ => heq path
  · apply Set.Subset.antisymm
    · rintro _ ⟨j, hj, rfl⟩
      obtain ⟨path, j', hj'⟩ := hmirrors.joins j hj
      rw [hmatch path j j' hj']
      exact hj'.right.mem
    · intro j' hj'
      obtain ⟨path, j, hj⟩ := hmirrors.joins' j' hj'
      exact ⟨j, hj.left.mem, hmatch path j j' hj⟩
  · intro name field field' hmem hmem'
    obtain ⟨hcolumn, htype, hname, hname'⟩ := hmirrors.fields name field field' hmem hmem'
    obtain ⟨⟨qualifier, column⟩, type⟩ := field
    obtain ⟨⟨qualifier', column'⟩, type'⟩ := field'
    cases hcolumn
    cases htype
    rw [Field.rename, heq _ _ _ hname hname']

/-- A renaming cannot take the root table's name from one path alone. -/
theorem Renames.sameClashes {rename : String → String} (hr : t.Renames scope t' rename) :
    t.SameClashes scope t' := by
  intro path hpath
  have hnil := nameOf?_nil scope t
  constructor
  · intro hname
    obtain ⟨name', hname'⟩ := h.exists_nameOf? h' hpaths hname
    rw [hname', ← hr.aliases path hpath _ _ hname hname', hr.root]
  · intro hname'
    obtain ⟨name, hname⟩ := h'.exists_nameOf? h (fun path => (hpaths path).symm) hname'
    have hmem := (h.mem_fromNames hbase htable).mpr ⟨path, hname⟩
    have hroot := (h.mem_fromNames hbase htable).mpr ⟨[], hnil⟩
    have heq := (hr.aliases path hpath _ _ hname hname').trans hr.root.symm
    rw [hname, hr.bijOn.injOn hmem hroot heq]

end Exchange

/--
**Names used in another order make the same joins and fields under other aliases.**  They
are the same up to a renaming that keeps the root table, if and only if the aliases that
are called like the root table stand for the same paths in both orders.
-/
theorem exists_renames_iff (scope : Scope) {names names' : List String}
    (hperm : names.Perm names')
    (hresolves : ∀ name ∈ names, ∃ resolution, scope.resolve [] name = .ok resolution) :
    let t := ofNames scope (.allOf scope.model.table) names
    let t' := ofNames scope (.allOf scope.model.table) names'
    t.names = names ∧ t'.names = names' ∧ t.Mirrors scope t' ∧
      ((∃ rename, t.Renames scope t' rename) ↔ t.SameClashes scope t') := by
  intro t t'
  obtain ⟨plan, h⟩ := follows_ofNames scope (.allOf scope.model.table) names
  obtain ⟨plan', h'⟩ := follows_ofNames scope (.allOf scope.model.table) names'
  have hnames : t.names = names := by
    refine names_ofNames scope _ fun name hname => ?_
    obtain ⟨resolution, hresolve⟩ := hresolves name hname
    exact destination_of_resolve hresolve
  have hnames' : t'.names = names' := by
    refine names_ofNames scope _ fun name hname => ?_
    obtain ⟨resolution, hresolve⟩ := hresolves name (hperm.mem_iff.mpr hname)
    exact destination_of_resolve hresolve
  -- the listed paths are those that the names use, in whatever order
  have hpaths : ∀ path, path ∈ t.paths ↔ path ∈ t'.paths := by
    intro path
    rw [h.mem_paths, h'.mem_paths, show (ofNames scope _ names).names = names from hnames,
      show (ofNames scope _ names').names = names' from hnames']
    simp only [hperm.mem_iff]
  refine ⟨hnames, hnames', h.mirrors h' rfl hpaths, ?_, ?_⟩
  · rintro ⟨rename, hr⟩
    exact hr.sameClashes h h' rfl rfl hpaths
  · intro hclashes
    exact ⟨_, renames_counterpart h h' rfl rfl hpaths hclashes⟩

end Transcript

/-! ### Shelves -/

namespace Shelves

def book : Entity :=
  ⟨"Book", "books", [⟨"id", .integer⟩, ⟨"title", .string⟩], []⟩

def room : Entity :=
  ⟨"Room", "rooms", [⟨"id", .integer⟩, ⟨"floor", .integer⟩], []⟩

/-- Shelves, each for one book and in one room, in a table of this name. -/
def shelf (table : String) : Entity :=
  ⟨"Shelf", table, [⟨"book_id", .integer⟩, ⟨"room_id", .integer⟩],
    [.manyToOne "book" "Book" "book_id" "id", .manyToOne "room" "Room" "room_id" "id"]⟩

/-- Where shelves are looked up by their books and rooms. -/
def scope (table : String) : Scope where
  schema := Directory.ofList [shelf table, book, room]
  model := shelf table
  bindings := Directory.ofList [⟨"floor", .joined "floor" ["room"]⟩,
    ⟨"title", .joined "title" ["book"]⟩]

/-- What the names come to, one after another. -/
def after (table : String) (names : List String) : Transcript :=
  .ofNames (scope table) (.allOf table) names

/-- Both aliases change with the order, and exchanging them is all it takes. -/
theorem renames_shelves :
    ["title", "floor"].Perm ["floor", "title"] ∧
      (∀ name ∈ ["title", "floor"], ∃ resolution,
        (scope "shelves").resolve [] name = .ok resolution) ∧
      (after "shelves" ["title", "floor"]).draft.select.fromNames =
        ["shelves", "books_1", "rooms_2"] ∧
      (after "shelves" ["floor", "title"]).draft.select.fromNames =
        ["shelves", "rooms_1", "books_2"] ∧
      ∃ rename, (after "shelves" ["title", "floor"]).Renames (scope "shelves")
        (after "shelves" ["floor", "title"]) rename := by
  have hperm : ["title", "floor"].Perm ["floor", "title"] := List.Perm.swap _ _ _
  have hresolves : ∀ name ∈ ["title", "floor"], ∃ resolution,
      (scope "shelves").resolve [] name = .ok resolution := by
    intro name hname
    rcases List.mem_pair.mp hname with rfl | rfl
    · exact ⟨_, rfl⟩
    · exact ⟨_, rfl⟩
  obtain ⟨-, -, -, hrename⟩ := Transcript.exists_renames_iff (scope "shelves") hperm hresolves
  exact ⟨hperm, hresolves, by decide, by decide, hrename.mpr (by decide)⟩

/--
Where shelves are in a table called like an alias, the books are joined under that name
in one order only.  A renaming would have to keep the name for the shelves and to change
it for the books.
-/
theorem not_renames_books :
    ["title", "floor"].Perm ["floor", "title"] ∧
      (∀ name ∈ ["title", "floor"], ∃ resolution,
        (scope "books_1").resolve [] name = .ok resolution) ∧
      ¬∃ rename, (after "books_1" ["title", "floor"]).Renames (scope "books_1")
        (after "books_1" ["floor", "title"]) rename := by
  refine ⟨List.Perm.swap _ _ _, ?_, ?_⟩
  · intro name hname
    rcases List.mem_pair.mp hname with rfl | rfl
    · exact ⟨_, rfl⟩
    · exact ⟨_, rfl⟩
  · rintro ⟨rename, h⟩
    have hbooks : rename "books_1" = "books_2" :=
      h.aliases ["book"] (by decide) _ _ (by decide) (by decide)
    have hshelves : rename "books_1" = "books_1" := h.root
    have hne : "books_2" ≠ "books_1" := by decide
    exact hne (hbooks.symm.trans hshelves)

end Shelves

end FilterSelect
