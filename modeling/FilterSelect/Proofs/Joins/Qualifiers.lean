/-
What the qualifiers of a statement denote.

An alias is there to tell one joined table from another, so that a column can be read
from the right one.  Among themselves aliases never clash, since each has a number of
its own.  But the root table stands in the FROM clause under its own name, which can be
any text, and no alias is chosen with a view to it.  A root table that is called
`email_1` clashes with the first table `email` that is joined.

So qualifiers can be ambiguous, and exactly then: `Unambiguous` says that every qualifier
of a statement denotes one item of the FROM clause, namely the one it was written for,
and that holds if and only if no join has the name of the root table for an alias.
-/
import FilterSelect.Proofs.Joins.Consistency

namespace FilterSelect

namespace Select

/-- The names that stand in the FROM clause: that of the root table and the aliases. -/
def fromNames (s : Select) : List String :=
  s.table :: s.joins.map Join.aliasName

/-- A qualifier denotes an item of the FROM clause, counted from the root table, and no other. -/
def Denotes (s : Select) (qualifier : String) (item : Nat) : Prop :=
  ∀ i, s.fromNames[i]? = some qualifier ↔ i = item

variable {s : Select}

private theorem denotes_of_nodup (h : s.fromNames.Nodup) {qualifier : String} {item : Nat}
    (hitem : s.fromNames[item]? = some qualifier) : s.Denotes qualifier item := by
  intro i
  constructor
  · intro hi
    have hlt : i < s.fromNames.length := (List.getElem?_eq_some_iff.mp hi).1
    exact (List.getElem?_inj hlt h).mp (hi.trans hitem.symm)
  · rintro rfl
    exact hitem

end Select

namespace Transcript

/-- The item of the FROM clause that was brought in for a path; the root table is item 0. -/
def item (t : Transcript) (path : List String) : Nat :=
  ([] :: t.paths).idxOf path

/-- Every qualifier that a statement uses denotes the item that it was written for. -/
structure Unambiguous (scope : Scope) (t : Transcript) : Prop where
  /-- The root table's name in front of the star. -/
  star : t.draft.select.Denotes t.draft.select.table 0
  /-- Both sides of the condition of the join for a path. -/
  on : ∀ (i : Nat) (j : Join) path, t.draft.select.joins[i]? = some j → t.paths[i]? = some path →
    t.draft.select.Denotes j.base (t.item path.dropLast) ∧
      t.draft.select.Denotes j.aliasName (t.item path)
  /-- The fields that conditions and orders are about. -/
  fields : ∀ name field, (name, field) ∈ t.applied →
    t.draft.select.Denotes field.qualifier (t.item (scope.pathOf name))

variable {scope : Scope} {base : Select} {plan : List PendingJoin} {t : Transcript}

theorem Follows.fromNames_eq (h : t.Follows scope base plan) (hbase : base.joins = []) :
    t.draft.select.fromNames = base.table :: plan.map fun p => p.join.aliasName := by
  rw [Select.fromNames, h.joins_eq hbase, List.map_map, h.select]
  rfl

/-- The names are distinct but for a join that takes that of the root table. -/
theorem Follows.nodup_fromNames (h : t.Follows scope base plan) (hbase : base.joins = []) :
    t.draft.select.fromNames.Nodup ↔
      base.table ∉ t.draft.select.joins.map Join.aliasName := by
  rw [h.fromNames_eq hbase, List.nodup_cons, h.joins_eq hbase, List.map_map]
  exact and_iff_left h.planned.nodup_aliases

private theorem Follows.item_eq {i : Nat} {p : PendingJoin} (h : t.Follows scope base plan)
    (hp : plan[i]? = some p) : t.item p.path = i + 1 := by
  have hnodup : ([] :: pathsOf plan).Nodup :=
    List.nodup_cons.mpr ⟨h.planned.path_ne_nil, h.planned.nodup⟩
  have hpath : ([] :: pathsOf plan)[i + 1]? = some p.path := by simp [pathsOf, hp]
  obtain ⟨hlt, hget⟩ := List.getElem?_eq_some_iff.mp hpath
  rw [item, h.paths_eq, ← hget]
  exact hnodup.idxOf_getElem (i + 1) hlt

private theorem Follows.fromNames_item {path : List String} {entity : Entity} {qualifier : String}
    (h : t.Follows scope base plan) (hbase : base.joins = [])
    (htable : base.table = scope.model.table) (hs : scope.Stands plan path entity qualifier) :
    t.draft.select.fromNames[t.item path]? = some qualifier := by
  rw [h.fromNames_eq hbase]
  cases hs with
  | root => simp [item, htable]
  | @joined p _ hp _ =>
      obtain ⟨i, hi⟩ := List.getElem?_of_mem hp
      simp [h.item_eq hi, hi]

private theorem Follows.unambiguous (h : t.Follows scope base plan) (hbase : base.joins = [])
    (htable : base.table = scope.model.table) (hnodup : t.draft.select.fromNames.Nodup) :
    t.Unambiguous scope where
  star := Select.denotes_of_nodup hnodup rfl
  on := by
    intro i j path hj hpath
    rw [h.joins_eq hbase, List.getElem?_map, Option.map_eq_some_iff] at hj
    obtain ⟨p, hp, rfl⟩ := hj
    rw [h.paths_eq, pathsOf, List.getElem?_map, hp] at hpath
    cases hpath
    have hmem : p ∈ plan := List.mem_of_getElem? hp
    obtain ⟨near, hnear⟩ := h.planned.base_stands p hmem
    obtain ⟨target, htarget, -⟩ := h.planned.leads p hmem
    constructor
    · exact Select.denotes_of_nodup hnodup (h.fromNames_item hbase htable hnear)
    · exact Select.denotes_of_nodup hnodup (h.fromNames_item hbase htable (.joined hmem htarget))
  fields := by
    intro name field hmem
    obtain ⟨entity, hs, -⟩ := h.stands hmem
    exact Select.denotes_of_nodup hnodup (h.fromNames_item hbase htable hs)

private theorem Unambiguous.not_mem (h : t.Unambiguous scope) :
    t.draft.select.table ∉ t.draft.select.joins.map Join.aliasName := by
  intro hmem
  obtain ⟨i, hi⟩ := List.getElem?_of_mem hmem
  have hzero : i + 1 = 0 :=
    (h.star (i + 1)).mp (by rw [Select.fromNames, List.getElem?_cons_succ, hi])
  omega

/-- No join takes a name that is no table of the schema with an underscore and a number. -/
theorem Follows.not_mem_aliases {table : String} (h : t.Follows scope base plan)
    (hbase : base.joins = []) (htable : ∀ (entity : Entity) number,
      scope.schema.find? entity.name = some entity → table ≠ aliasOf entity.table number) :
    table ∉ t.draft.select.joins.map Join.aliasName := by
  rw [h.joins_eq hbase, List.map_map]
  intro hmem
  obtain ⟨p, hp, rfl⟩ := List.mem_map.mp hmem
  obtain ⟨number, hname, -⟩ := h.planned.numbered p hp
  obtain ⟨relationship, target, -, hfind, -, hjoined, -⟩ := h.planned.link?_eq p hp
  rw [hjoined] at hname
  exact htable target number hfind hname

/-- Schemas in which the root table is not called like an alias have no ambiguous statements. -/
theorem unambiguous_ofNames (names : List String)
    (htable : ∀ (entity : Entity) number, scope.schema.find? entity.name = some entity →
      scope.model.table ≠ aliasOf entity.table number) :
    (ofNames scope (.allOf scope.model.table) names).Unambiguous scope := by
  obtain ⟨plan, h⟩ := follows_ofNames scope (.allOf scope.model.table) names
  exact h.unambiguous rfl rfl ((h.nodup_fromNames rfl).mpr (h.not_mem_aliases rfl htable))

/--
**Names in the FROM clause are distinct, and qualifiers denote what they were written
for, exactly where no join has the root table's name for an alias.**
-/
theorem unambiguous_iff (scope : Scope) (names : List String) :
    let t := ofNames scope (.allOf scope.model.table) names
    let aliases := t.draft.select.joins.map Join.aliasName
    (t.draft.select.fromNames.Nodup ↔ scope.model.table ∉ aliases) ∧
      (t.Unambiguous scope ↔ scope.model.table ∉ aliases) := by
  obtain ⟨plan, h⟩ := follows_ofNames scope (.allOf scope.model.table) names
  have hnodup := h.nodup_fromNames rfl
  refine ⟨hnodup, ?_, ?_⟩
  · intro hunambiguous
    have hmem := hunambiguous.not_mem
    rw [h.select] at hmem ⊢
    exact hmem
  · intro hmem
    exact h.unambiguous rfl rfl (hnodup.mpr hmem)

end Transcript

/-! ### A mail service -/

namespace Mail

/-- Mail boxes, in a table whose name ends like an alias. -/
def box : Entity :=
  ⟨"Box", "email_1", [⟨"id", .integer⟩, ⟨"email_id", .integer⟩],
    [.manyToOne "email" "EMail" "email_id" "id"]⟩

def email : Entity :=
  ⟨"EMail", "email", [⟨"id", .integer⟩, ⟨"mail", .string⟩], []⟩

/-- Where boxes are looked up by their addresses. -/
def scope : Scope where
  schema := Directory.ofList [box, email]
  model := box
  bindings := Directory.ofList [⟨"mail", .joined "mail" ["email"]⟩]

/-- The address of a box is joined under the name that the boxes have. -/
theorem not_nodup_fromNames :
    (Transcript.ofNames scope (.allOf "email_1") ["mail"]).names = ["mail"] ∧
      (Transcript.ofNames scope (.allOf "email_1") ["mail"]).draft.select.fromNames =
        ["email_1", "email_1"] ∧
      ¬(Transcript.ofNames scope (.allOf "email_1") ["mail"]).draft.select.fromNames.Nodup ∧
      ¬(Transcript.ofNames scope (.allOf "email_1") ["mail"]).Unambiguous scope := by
  refine ⟨by decide, by decide, by decide, ?_⟩
  intro h
  exact h.not_mem (by decide)

end Mail

end FilterSelect
