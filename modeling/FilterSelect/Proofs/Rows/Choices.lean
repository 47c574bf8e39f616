/-
What a query asks of the rows of a database.

No joins and no aliases occur here.  A query uses some paths, and a choice picks a
row for each of them from the table that the path leads to.  A choice is related
if each picked row matches the one picked for the path that is one segment
shorter, which for a path of one segment is a row of the root table.  A leaf reads
its column from the row picked for its path, so all leaves with one path read the
same row.  A row of the root table then counts once for each related choice under
which the filter holds.
-/
import FilterSelect.Proofs.Evaluation.PathTest
import FilterSelect.Proofs.Rows.Semantics
import Mathlib.Data.Multiset.Pi

namespace FilterSelect

variable {Cell : Type}

/-- A row for each path; for the empty path it is a row of the root table. -/
abbrev Choice (Cell : Type) := List String → Row Cell

namespace Scope

variable {scope : Scope} {db : Database Cell} {root : Row Cell}

/-- The rows of the table that a path leads to. -/
def rowsAt (scope : Scope) (db : Database Cell) (path : List String) : Multiset (Row Cell) :=
  match scope.reach scope.model path with
  | .ok entity => db.rows entity.table
  | .error _ => 0

/-- A row for each of some paths, and the root's row for any other. -/
def overRoot (used : Multiset (List String)) (root : Row Cell) (chosen : ∀ path ∈ used, Row Cell) :
    Choice Cell :=
  fun path => if h : path ∈ used then chosen path h else root

/-- All ways to choose a row for each of some paths, with a row of the root table given. -/
def choices (scope : Scope) (db : Database Cell) (used : Multiset (List String))
    (root : Row Cell) : Multiset (Choice Cell) :=
  (used.pi (scope.rowsAt db)).map (overRoot used root)

/-- Whether the row chosen for a path matches the row chosen one segment before. -/
def linkTruth (scope : Scope) (db : Database Cell) (choice : Choice Cell) (path : List String) :
    Truth :=
  match scope.link? path with
  | some (relationship, _) =>
    db.equal (choice path.dropLast relationship.localColumn)
      (choice path relationship.remoteColumn)
  | none => .unknown

/-- Every chosen row matches the one that is chosen one segment before. -/
def Related (scope : Scope) (db : Database Cell) (used : List (List String))
    (choice : Choice Cell) : Prop :=
  ∀ path ∈ used, scope.linkTruth db choice path = .holds

instance (used : List (List String)) (choice : Choice Cell) :
    Decidable (scope.Related db used choice) :=
  inferInstanceAs (Decidable (∀ path ∈ used, _))

/-- The ways to choose a related row for each of some paths, starting from a root row. -/
def relatedChoices (scope : Scope) (db : Database Cell) (used : List (List String))
    (root : Row Cell) : Multiset (Choice Cell) :=
  (scope.choices db used root).filter (scope.Related db used)

/-- The rows at the end of a path that match a given row one segment before it. -/
def matching (scope : Scope) (db : Database Cell) (path : List String) (near : Row Cell) :
    Multiset (Row Cell) :=
  match scope.link? path with
  | some (relationship, _) =>
    (scope.rowsAt db path).filter fun far =>
      db.equal (near relationship.localColumn) (far relationship.remoteColumn) = .holds
  | none => 0

end Scope

/-- What a filter comes to if its leaves come to the given truth values. -/
def FilterTree.truth (leaf : Leaf → Truth) : FilterTree → Truth
  | .leaf l => leaf l
  | .not inner => (inner.truth leaf).not
  | .and left right => (left.truth leaf).and (right.truth leaf)
  | .or left right => (left.truth leaf).or (right.truth leaf)
  | .binding _ _ _ => .unknown

namespace Evaluation

/-- What a leaf comes to: its test of its column, in the row chosen for its path. -/
def leafTruth (e : Evaluation) (db : Database Cell) (choice : Choice Cell) (l : Leaf) : Truth :=
  match e.pathTest? l with
  | some asked => db.passes asked.test (choice asked.path asked.column)
  | none => .unknown

/-- Whether a query keeps a choice; without a filter it keeps them all. -/
def Keeps (e : Evaluation) (db : Database Cell) (query : Query) (choice : Choice Cell) : Prop :=
  match query.filter with
  | none => True
  | some tree => tree.truth (e.leafTruth db choice) = .holds

instance (e : Evaluation) (db : Database Cell) (query : Query) (choice : Choice Cell) :
    Decidable (e.Keeps db query choice) := by
  unfold Keeps
  cases query.filter <;> infer_instance

/-- Whether a row of the root table has a related choice that a query keeps. -/
def Satisfies (e : Evaluation) (db : Database Cell) (query : Query) (root : Row Cell) : Prop :=
  ∃ choice ∈ e.scope.relatedChoices db (e.scope.usedPaths query.names) root,
    e.Keeps db query choice

instance (e : Evaluation) (db : Database Cell) (query : Query) (root : Row Cell) :
    Decidable (e.Satisfies db query root) :=
  Multiset.decidableExistsMultiset

/-- How often a query returns a row of the root table. -/
def ways (e : Evaluation) (db : Database Cell) (query : Query) (root : Row Cell) : Nat :=
  ((e.scope.relatedChoices db (e.scope.usedPaths query.names) root).filter
    (e.Keeps db query)).card

end Evaluation

/-! ### Choosing a row for one path more

A path that is new is no beginning of the ones before it.  So a row chosen for it has to match
the row before it, and nothing that was chosen already is affected.
-/

namespace Scope

variable {scope : Scope} {db : Database Cell} {root : Row Cell} {used : List (List String)}
  {path : List String} {choice : Choice Cell}

private theorem overRoot_cons {used : Multiset (List String)} (h : path ∉ used) (far : Row Cell)
    (chosen : ∀ path ∈ used, Row Cell) :
    overRoot (path ::ₘ used) root (Multiset.Pi.cons used path far chosen) =
      Function.update (overRoot used root chosen) path far := by
  funext other
  by_cases hother : other = path
  · subst hother
    rw [Function.update_self, overRoot, dif_pos (Multiset.mem_cons_self ..)]
    exact Multiset.Pi.cons_same _
  · rw [Function.update_of_ne hother]
    unfold overRoot
    by_cases hmem : other ∈ used
    · rw [dif_pos hmem, dif_pos (Multiset.mem_cons_of_mem hmem)]
      exact Multiset.Pi.cons_ne _ hother
    · have hmem' : other ∉ path ::ₘ used := by
        simp [hother, hmem]
      rw [dif_neg hmem, dif_neg hmem']

private theorem choices_cons {used : Multiset (List String)} (h : path ∉ used) :
    scope.choices db (path ::ₘ used) root =
      (scope.choices db used root).bind fun choice =>
        (scope.rowsAt db path).map (Function.update choice path) := by
  unfold choices
  rw [Multiset.pi_cons, Multiset.map_bind, Multiset.bind_map]
  simp only [Multiset.map_map, Function.comp_def, overRoot_cons h]
  exact Multiset.bind_map_comm _ _

theorem relatedChoices_nil : scope.relatedChoices db [] root = {fun _ => root} := by
  have hchoices : scope.choices db ((([] : List (List String))) : Multiset (List String)) root =
      {fun _ => root} := by
    unfold choices
    rw [Multiset.coe_nil, Multiset.pi_zero, Multiset.map_singleton]
    rfl
  unfold relatedChoices
  rw [hchoices, Multiset.filter_singleton, if_pos]
  intro path hpath
  cases hpath

theorem root_of_mem_choices {used : Multiset (List String)} (h : [] ∉ used)
    (hchoice : choice ∈ scope.choices db used root) : choice [] = root := by
  obtain ⟨chosen, -, rfl⟩ := Multiset.mem_map.mp hchoice
  exact dif_neg h

private theorem linkTruth_congr {choice choice' : Choice Cell}
    (hnear : choice path.dropLast = choice' path.dropLast) (hfar : choice path = choice' path) :
    scope.linkTruth db choice path = scope.linkTruth db choice' path := by
  unfold linkTruth
  rw [hnear, hfar]

/-- A row chosen for a new path changes nothing about the paths that do not go through it. -/
theorem related_update (hfresh : path ∉ used) (hthrough : ∀ other ∈ used, other.dropLast ≠ path)
    (far : Row Cell) :
    scope.Related db used (Function.update choice path far) ↔ scope.Related db used choice := by
  refine forall₂_congr ?_
  intro other hother
  have hne : other ≠ path := by
    rintro rfl
    exact hfresh hother
  rw [linkTruth_congr (Function.update_of_ne (hthrough other hother) ..)
    (Function.update_of_ne hne ..)]

private theorem related_append :
    scope.Related db (used ++ [path]) choice ↔
      scope.Related db used choice ∧ scope.linkTruth db choice path = .holds := by
  simp [Related, or_imp, forall_and]

/-- A related choice for one path more is a related choice with a matching row at its end. -/
theorem relatedChoices_append (hpath : path ≠ []) (hfresh : path ∉ used)
    (hthrough : ∀ other ∈ used, other.dropLast ≠ path) :
    scope.relatedChoices db (used ++ [path]) root =
      (scope.relatedChoices db used root).bind fun choice =>
        (scope.matching db path (choice path.dropLast)).map (Function.update choice path) := by
  have hused : ((used ++ [path] : List (List String)) : Multiset (List String)) =
      path ::ₘ (used : Multiset (List String)) :=
    Multiset.coe_eq_coe.mpr (List.perm_append_singleton path used)
  have hdrop : path.dropLast ≠ path := by
    intro h
    have hlength := congrArg List.length h
    rw [List.length_dropLast] at hlength
    have hpos := List.length_pos_iff.mpr hpath
    omega
  unfold relatedChoices
  rw [hused, choices_cons (by simpa using hfresh), Multiset.filter_bind, Multiset.bind_filter]
  refine Multiset.bind_congr ?_
  intro choice _
  rw [Multiset.filter_map]
  by_cases hrelated : scope.Related db used choice
  · rw [if_pos hrelated]
    congr 1
    unfold matching
    cases hlink : scope.link? path with
    | none =>
        rw [Multiset.filter_eq_nil]
        intro far _
        simp [related_append, linkTruth, hlink]
    | some link =>
        refine Multiset.filter_congr ?_
        intro far _
        show scope.Related db (used ++ [path]) (Function.update choice path far) ↔ _
        rw [related_append, related_update hfresh hthrough, linkTruth, hlink]
        simp [hrelated, Function.update_of_ne hdrop]
  · rw [if_neg hrelated, Multiset.map_eq_zero, Multiset.filter_eq_nil]
    intro far _ h
    exact hrelated ((related_update hfresh hthrough far).mp (related_append.mp h).1)

end Scope

end FilterSelect
