/-
Names that a registry lists twice.

A registry is looked up by name, and its names are also listed: a parser of requests is
given the list.  Registering an operator looks for its name first, so it lists no name
twice, and another default leaves the list as it is.  A choice of operators makes the list
anew, from the names that it is given, and looks for nothing: a name that is given twice is
listed twice.

So the list is a matter of names alone (`Change.relist`), and of a history only the last
choice counts (`nodup_relist_iff`).  With a name listed twice, an operator registered
afterwards takes the place of the first one only; the second one stays listed, and no
look-up finds it.
-/
import FilterSelect.Proofs.Registry.History
import Mathlib.Data.Finset.Card
import Mathlib.Data.List.Induction

namespace FilterSelect

namespace Registry

variable {r next : Registry} {c : Change} {op : Operator}

/-! ### Lists of names

A history changes the list of names in the order of its changes, and a choice of operators
forgets all that was listed before.
-/

/-- The names listed after a change, where these were listed before. -/
def Change.relist (names : List String) : Change → List String
  | .register op => if op.name ∈ names then names else names ++ [op.name]
  | .withDefault _ => names
  | .subset chosen => chosen

/-- The names that a choice of operators is given. -/
def Change.chosen? : Change → Option (List String)
  | .subset chosen => some chosen
  | _ => none

/-- The names that the last choice of operators in a history was given, if there was one. -/
def lastChoice? (history : List Change) : Option (List String) :=
  (history.filterMap Change.chosen?).getLast?

theorem lastChoice?_concat (history : List Change) (c : Change) :
    lastChoice? (history ++ [c]) = c.chosen?.or (lastChoice? history) :=
  getLast?_filterMap_append_singleton Change.chosen? history c

/-- Only the last choice of a history can list a name twice. -/
theorem nodup_relist_iff {names : List String} (hnames : names.Nodup) (history : List Change) :
    (history.foldl Change.relist names).Nodup ↔
      ∀ chosen, lastChoice? history = some chosen → chosen.Nodup := by
  induction history using List.reverseRecOn with
  | nil => simpa [lastChoice?] using hnames
  | append_singleton history c ih =>
      rw [List.foldl_append, List.foldl_cons, List.foldl_nil, lastChoice?_concat]
      cases c with
      | register op =>
          refine Iff.trans ?_ ih
          rw [Change.relist]
          split
          · rfl
          · rename_i hnew
            rw [List.nodup_append_comm, List.singleton_append, List.nodup_cons]
            exact and_iff_right hnew
      | withDefault name => exact ih
      | subset chosen => simp [Change.chosen?, Change.relist]

/-! ### One change -/

theorem names_place (op : Operator) (ops : List Operator) :
    (place op ops).map Operator.name =
      if op.name ∈ ops.map Operator.name then ops.map Operator.name
      else ops.map Operator.name ++ [op.name] := by
  induction ops with
  | nil => simp [place]
  | cons other rest ih =>
      by_cases hplace : other.name = op.name
      · simp [place, hplace]
      · have hother : op.name ≠ other.name := fun h => hplace h.symm
        rw [place, if_neg hplace, List.map_cons, ih, List.map_cons]
        by_cases hrest : op.name ∈ rest.map Operator.name
        · rw [if_pos hrest, if_pos (List.mem_cons_of_mem _ hrest)]
        · rw [if_neg hrest, if_neg (List.not_mem_cons_of_ne_of_not_mem hother hrest),
            List.cons_append]

theorem names_getAll {names : List String} {operators : List Operator}
    (h : r.getAll names = .ok operators) : operators.map Operator.name = names := by
  induction names generalizing operators with
  | nil =>
      cases h
      rfl
  | cons first rest ih =>
      obtain ⟨op, others, hfound, hrest, rfl⟩ := getAll_cons h
      rw [List.map_cons, ih hrest, name_of_find? hfound]

theorem names_change (h : r.change c = .ok next) : next.names = c.relist r.names := by
  cases c with
  | register op =>
      cases h
      exact names_place op r.operators
  | withDefault name =>
      obtain ⟨-, rfl⟩ := withDefault_eq_ok h
      rfl
  | subset chosen => exact names_getAll (subset_eq_ok h).1

/-! ### Any number of changes

The list follows from the changes that did not fail, since one that fails leaves the registry
as it was.
-/

theorem names_after (r : Registry) (calls : List Change) :
    (r.after calls).names = (r.accomplished calls).foldl Change.relist r.names := by
  induction calls generalizing r with
  | nil => rfl
  | cons c rest ih =>
      rw [after, List.foldl_cons, ← after, accomplished, attempt]
      cases hc : r.change c with
      | error fault => exact ih r
      | ok next =>
          dsimp only
          rw [ih next, names_change hc, List.foldl_cons]

private theorem nodup_names_of_start (h : r = empty ∨ r = builtIn) : r.names.Nodup := by
  rcases h with rfl | rfl
  · exact List.nodup_nil
  · decide

theorem contains_iff_mem_names {name : String} : r.contains name = true ↔ name ∈ r.names := by
  simp [contains, names]

private theorem find?_of_nodup (h : r.names.Nodup) (hop : op ∈ r.operators) :
    r.find? op.name = some op := by
  have hname : op.name ∈ r.names := List.mem_map_of_mem hop
  obtain ⟨found, hfound⟩ := contains_iff.mp (contains_iff_mem_names.mpr hname)
  have hmem : found ∈ r.operators := List.mem_of_find?_eq_some hfound
  rw [hfound, List.inj_on_of_nodup_map h hmem hop (name_of_find? hfound)]

private theorem length_eq_card_iff : r.operators.length = r.names.toFinset.card ↔ r.names.Nodup :=
    by
  have hlength : r.operators.length = r.names.length := (List.length_map Operator.name).symm
  rw [hlength]
  constructor
  · intro h
    exact Multiset.toFinset_card_eq_card_iff_nodup.mp h.symm
  · intro h
    exact (List.toFinset_card_of_nodup h).symm

/--
**Of all changes, only a choice of operators can list a name twice.**

A registry starts without operators or with all comparisons.  After any calls, failing ones
included, it lists no name twice if and only if the last choice of operators, if there was
one, was given no name twice.  This is also when it has as many operators as names, and then
a look-up by the name of an operator that is listed finds that operator.  In any case a
look-up by a name that is listed finds an operator of that name.
-/
theorem nodup_names_after {start : Registry} (hstart : start = empty ∨ start = builtIn)
    (calls : List Change) :
    let r := start.after calls
    (r.names.Nodup ↔
      ∀ chosen, lastChoice? (start.accomplished calls) = some chosen → chosen.Nodup) ∧
    (r.operators.length = r.names.toFinset.card ↔ r.names.Nodup) ∧
    (r.names.Nodup → ∀ op ∈ r.operators, r.get (.name op.name) = .ok op) ∧
    ∀ name ∈ r.names, ∃ op ∈ r.operators, op.name = name ∧ r.get (.name name) = .ok op := by
  intro r
  refine ⟨?_, length_eq_card_iff, ?_, ?_⟩
  · rw [names_after]
    exact nodup_relist_iff (nodup_names_of_start hstart) _
  · intro hnodup op hop
    exact get_eq_ok_iff.mpr (find?_of_nodup hnodup hop)
  · intro name hname
    obtain ⟨op, hop⟩ := contains_iff.mp (contains_iff_mem_names.mpr hname)
    exact ⟨op, List.mem_of_find?_eq_some hop, name_of_find? hop, get_eq_ok_iff.mpr hop⟩

/-- A name given twice by a choice, and the name listed once again after another choice. -/
theorem nodup_names_chosen_again :
    let near : Operator := .host "near" .like true
    let calls : List Change :=
      [.subset ["eq", "gt", "eq"], .register near, .subset ["near", "eq"], .register near]
    let r := builtIn.after calls
    r.names = ["near", "eq"] ∧ r.names.Nodup ∧ r.operators.length = r.names.toFinset.card ∧
      ∀ op ∈ r.operators, r.get (.name op.name) = .ok op := by
  intro near calls r
  obtain ⟨hnodup, hlength, hget, -⟩ := nodup_names_after (Or.inr rfl) calls
  have hnames : r.names.Nodup := hnodup.mpr (by decide)
  exact ⟨rfl, hnames, hlength.mpr hnames, hget hnames⟩

/--
A choice that is given a name twice lists it twice, and an operator registered under the name
afterwards leaves another one listed that no look-up finds.
-/
theorem not_nodup_names_chosen_twice :
    let twice := builtIn.after [.subset ["eq", "eq"]]
    let near : Operator := .host "eq" .like true
    twice.names = ["eq", "eq"] ∧ ¬ twice.names.Nodup ∧
      twice.operators.length ≠ twice.names.toFinset.card ∧
      .builtIn .eq ∈ (twice.register near).operators ∧
      (twice.register near).get (.name (Operator.builtIn .eq).name) = .ok near := by
  refine ⟨rfl, ?_, ?_, ?_, rfl⟩ <;> decide

end Registry

end FilterSelect
