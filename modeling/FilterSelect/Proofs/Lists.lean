/-
Lists that grow at the end, are looked up by key, or are read item by item.

What is said of a list is often said of its last item that something holds of: the entity
that no later one of its name replaces, or the operator that no later change drops.  Such a
statement splits the list at the item, and when the list grows by one item there are two
ways to split it, at the new item and before it (`exists_split_append_singleton_iff`).
-/
import Mathlib.Data.List.Nodup

namespace FilterSelect

variable {α β : Type}

/-! ### Splitting at an item -/

/-- A list with an item more splits at that item, or splits where it did. -/
theorem append_singleton_eq_append_cons_iff {items before later : List α} {a last : α} :
    items ++ [last] = before ++ a :: later ↔
      (items = before ∧ last = a ∧ later = []) ∨
        ∃ middle, later = middle ++ [last] ∧ items = before ++ a :: middle := by
  constructor
  · intro h
    rcases List.eq_nil_or_concat later with rfl | ⟨middle, b, rfl⟩
    · obtain ⟨hitems, hlast⟩ := List.append_inj' h rfl
      exact Or.inl ⟨hitems, List.singleton_inj.mp hlast, rfl⟩
    · rw [List.concat_eq_append, ← List.cons_append, ← List.append_assoc] at h
      obtain ⟨hitems, hlast⟩ := List.append_inj' h rfl
      rw [List.concat_eq_append, List.singleton_inj.mp hlast]
      exact Or.inr ⟨middle, rfl, hitems⟩
  · rintro (⟨rfl, rfl, rfl⟩ | ⟨middle, rfl, rfl⟩)
    · rfl
    · simp

/--
An item is the last one but for some `P` in a list with an item more if it is the new item, or
if it was so before and the new item is one of those `P`.
-/
theorem exists_split_append_singleton_iff {P : α → Prop} {items : List α} {a last : α} :
    (∃ before later, items ++ [last] = before ++ a :: later ∧ ∀ b ∈ later, P b) ↔
      last = a ∨ ((∃ before later, items = before ++ a :: later ∧ ∀ b ∈ later, P b) ∧ P last) := by
  simp only [append_singleton_eq_append_cons_iff]
  constructor
  · rintro ⟨before, later, ⟨-, hlast, -⟩ | ⟨middle, rfl, rfl⟩, hlater⟩
    · exact Or.inl hlast
    · obtain ⟨hmiddle, hlast⟩ := List.forall_mem_append.mp hlater
      exact Or.inr ⟨⟨before, middle, rfl, hmiddle⟩, List.forall_mem_singleton.mp hlast⟩
  · rintro (hlast | ⟨⟨before, middle, hitems, hmiddle⟩, hlast⟩)
    · exact ⟨items, [], Or.inl ⟨rfl, hlast, rfl⟩, List.forall_mem_nil P⟩
    · refine ⟨before, middle ++ [last], Or.inr ⟨middle, rfl, hitems⟩, ?_⟩
      exact List.forall_mem_append.mpr ⟨hmiddle, List.forall_mem_singleton.mpr hlast⟩

/-- Of a list with an item more, the last value is that of the item, if it has one. -/
theorem getLast?_filterMap_append_singleton (f : α → Option β) (items : List α) (last : α) :
    ((items ++ [last]).filterMap f).getLast? = (f last).or (items.filterMap f).getLast? := by
  rw [List.filterMap_append, List.getLast?_append]
  cases h : f last <;> simp [h]

/-! ### Looking up by key -/

/-- Where no key occurs twice, what is found for a key is what is listed for it. -/
theorem lookup_eq_some_iff_mem [BEq α] [LawfulBEq α] {pairs : List (α × β)}
    (hkeys : (pairs.map Prod.fst).Nodup) {key : α} {b : β} :
    pairs.lookup key = some b ↔ (key, b) ∈ pairs := by
  induction pairs with
  | nil => simp
  | cons pair rest ih =>
      obtain ⟨first, c⟩ := pair
      obtain ⟨hnew, hrest⟩ := List.nodup_cons.mp hkeys
      by_cases hkey : key = first
      · subst hkey
        have hother : (key, b) ∉ rest := fun hmem => hnew (List.mem_map.mpr ⟨_, hmem, rfl⟩)
        simp [hother, eq_comm]
      · have hfirst : (key == first) = false := beq_eq_false_iff_ne.mpr hkey
        rw [List.lookup_cons, hfirst]
        simp [ih hrest, hkey]

/-! ### Reading item by item -/

/-- Where reading succeeds on every item, it succeeds on the list. -/
theorem mapM_eq_some_map {f : α → Option β} {g : α → β} {l : List α}
    (h : ∀ a ∈ l, f a = some (g a)) : l.mapM f = some (l.map g) := by
  induction l with
  | nil => rfl
  | cons a rest ih =>
      obtain ⟨ha, hrest⟩ := List.forall_mem_cons.mp h
      rw [List.mapM_cons, ha, ih hrest]
      rfl

/-- What is written item by item is read back item by item. -/
theorem mapM_map_eq {f : β → Option α} {g : α → β} {l : List α}
    (h : ∀ a ∈ l, f (g a) = some a) : (l.map g).mapM f = some l := by
  rw [List.mapM_map]
  exact (mapM_eq_some_map h).trans (congrArg some (List.map_id' l))

end FilterSelect
