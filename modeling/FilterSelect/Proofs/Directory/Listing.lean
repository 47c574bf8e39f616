/-
Directories are their look-ups.

A directory lists its items in the order of their names, so two directories that find the
same items under all names list them alike (`ext_of_find?`).  Filing items is therefore a
matter of what is found afterwards, and items of different names can be filed in any order.
Filing the items of a directory, which are in order already, only lists them again.  Merging
two directories is a look-up in the upper one and then in the lower one (`find?_merge`).
-/
import FilterSelect.Directory
import FilterSelect.Proofs.Lists
import Mathlib.Data.List.Induction

namespace FilterSelect

namespace Directory

variable {α : Type} {key : α → String} {d e : Directory key} {a b : α} {items items' : List α}

/-! ### Finding and listing -/

theorem nodup_items (d : Directory key) : d.items.Nodup := by
  refine d.ordered.imp ?_
  rintro a b hlt rfl
  exact String.lt_irrefl _ hlt

theorem find?_of_mem (h : a ∈ d.items) : d.find? (key a) = some a := by
  obtain ⟨before, after, hitems⟩ := List.append_of_mem h
  have hordered := d.ordered
  rw [hitems, List.pairwise_append] at hordered
  obtain ⟨-, -, hbefore⟩ := hordered
  have hnone : before.find? (fun b => key b == key a) = none := by
    rw [List.find?_eq_none]
    intro b hb heq
    have hlt := hbefore b hb a List.mem_cons_self
    rw [beq_iff_eq.mp heq] at hlt
    exact String.lt_irrefl _ hlt
  simp [find?, hitems, List.find?_append, hnone]

theorem mem_iff_find? : a ∈ d.items ↔ d.find? (key a) = some a := by
  constructor
  · exact find?_of_mem
  · exact List.mem_of_find?_eq_some

/-- Directories that find the same are the same. -/
theorem ext_of_find? (h : ∀ name, d.find? name = e.find? name) : d = e := by
  apply Directory.ext
  refine List.Perm.eq_of_pairwise ?_ d.ordered e.ordered ?_
  · intro a b _ _ hab hba
    exact absurd (String.lt_trans hab hba) (String.lt_irrefl _)
  · rw [List.perm_ext_iff_of_nodup d.nodup_items e.nodup_items]
    intro a
    rw [mem_iff_find?, mem_iff_find?, h]

/-! ### Filing in any order

Filing an item replaces the one of its name and leaves all others, so items of different names
do not get in each other's way.
-/

theorem insert_comm (h : key a ≠ key b) : (d.insert a).insert b = (d.insert b).insert a := by
  apply ext_of_find?
  intro name
  rw [find?_insert, find?_insert, find?_insert, find?_insert]
  by_cases ha : key a = name
  · have hb : key b ≠ name := fun hb => h (ha.trans hb.symm)
    rw [if_neg hb, if_neg hb]
  · rw [if_neg ha, if_neg ha]

/-- Items of different names can be filed in any order. -/
theorem insertAll_perm (h : items.Perm items') (hkeys : (items.map key).Nodup) :
    d.insertAll items = d.insertAll items' := by
  induction h generalizing d with
  | nil => rfl
  | cons a _ ih => exact ih (List.nodup_cons.mp hkeys).2
  | swap a b l =>
      have hne : key b ≠ key a := by
        intro heq
        exact (List.nodup_cons.mp hkeys).1 (heq ▸ List.mem_cons_self)
      show ((d.insert b).insert a).insertAll l = ((d.insert a).insert b).insertAll l
      rw [insert_comm hne]
  | trans h _ ih ih' =>
      exact (ih hkeys).trans (ih' ((h.map key).nodup_iff.mp hkeys))

theorem ofList_perm (h : items.Perm items') (hkeys : (items.map key).Nodup) :
    (ofList items : Directory key) = ofList items' :=
  insertAll_perm h hkeys

/-! ### Filing in order -/

theorem fileInto_last (h : ∀ b ∈ items, key b < key a) : fileInto key a items = items ++ [a] := by
  induction items with
  | nil => rfl
  | cons b rest ih =>
      obtain ⟨hb, hrest⟩ := List.forall_mem_cons.mp h
      have hlt : ¬key a < key b := fun hab => String.lt_irrefl _ (String.lt_trans hab hb)
      have hne : key a ≠ key b := fun heq => String.lt_irrefl _ (heq ▸ hb)
      rw [fileInto, if_neg hlt, if_neg hne, ih hrest]
      rfl

theorem ofList_concat (items : List α) (a : α) :
    (ofList (items ++ [a]) : Directory key) = (ofList items).insert a := by
  rw [ofList, insertAll, List.foldl_append]
  rfl

/-- Items in order are listed as they come. -/
theorem items_ofList (h : items.Pairwise fun a b => key a < key b) :
    (ofList items : Directory key).items = items := by
  induction items using List.reverseRecOn with
  | nil => rfl
  | append_singleton items a ih =>
      obtain ⟨hitems, -, hlast⟩ := List.pairwise_append.mp h
      rw [ofList_concat, insert]
      show fileInto key a (ofList items : Directory key).items = _
      rw [ih hitems]
      exact fileInto_last fun b hb => hlast b hb a (List.mem_singleton_self a)

theorem ofList_items (d : Directory key) : ofList d.items = d :=
  Directory.ext (items_ofList d.ordered)

/-- Of the items filed under one name, the last is listed, and no other item is. -/
theorem mem_ofList_iff : a ∈ (ofList items : Directory key).items ↔
    ∃ before later, items = before ++ a :: later ∧ ∀ b ∈ later, key b ≠ key a := by
  rw [mem_iff_find?]
  induction items using List.reverseRecOn with
  | nil => simp [ofList, insertAll]
  | append_singleton items last ih =>
      rw [ofList_concat, find?_insert, exists_split_append_singleton_iff, ← ih]
      split
      · rename_i hkey
        simp [hkey]
      · rename_i hkey
        have hne : last ≠ a := fun h => hkey (congrArg key h)
        rw [or_iff_right hne, and_iff_left hkey]

theorem mem_of_mem_ofList (h : a ∈ (ofList items : Directory key).items) : a ∈ items := by
  obtain ⟨before, later, rfl, -⟩ := mem_ofList_iff.mp h
  exact List.mem_append_right before List.mem_cons_self

/-! ### Merging

The upper directory is filed into the lower one item by item, and each of its items is found
afterwards.
-/

/-- Of items in order, the one filed under a name is found, and else what was found before. -/
theorem find?_insertAll (h : items.Pairwise fun a b => key a < key b) (name : String) :
    (d.insertAll items).find? name =
      (items.find? fun a => key a == name).or (d.find? name) := by
  induction items generalizing d with
  | nil => rfl
  | cons a rest ih =>
      obtain ⟨ha, hrest⟩ := List.pairwise_cons.mp h
      show ((d.insert a).insertAll rest).find? name = _
      rw [ih hrest, find?_insert, List.find?_cons]
      by_cases hname : key a = name
      · -- no later item has the name, so none takes its place
        have hnone : rest.find? (fun b => key b == name) = none := by
          rw [List.find?_eq_none]
          intro b hb heq
          have hlt := ha b hb
          rw [hname, beq_iff_eq.mp heq] at hlt
          exact String.lt_irrefl _ hlt
        simp [hname, hnone]
      · rw [if_neg hname, beq_eq_false_iff_ne.mpr hname]

/-- What the upper directory files under a name is found, and else what the lower one does. -/
theorem find?_merge (d e : Directory key) (name : String) :
    (d.merge e).find? name = (e.find? name).or (d.find? name) :=
  find?_insertAll e.ordered name

theorem merge_assoc (d e f : Directory key) : (d.merge e).merge f = d.merge (e.merge f) := by
  apply ext_of_find?
  intro name
  simp only [find?_merge, Option.or_assoc]

@[simp] theorem empty_merge (d : Directory key) : empty.merge d = d :=
  ofList_items d

@[simp] theorem merge_empty (d : Directory key) : d.merge empty = d := rfl

theorem mem_names_iff {name : String} : name ∈ d.names ↔ ∃ a, d.find? name = some a := by
  rw [names, List.mem_map]
  constructor
  · rintro ⟨a, ha, rfl⟩
    exact ⟨a, find?_of_mem ha⟩
  · rintro ⟨a, ha⟩
    have hkey : key a = name := by simpa using List.find?_some ha
    exact ⟨a, List.mem_of_find?_eq_some ha, hkey⟩

end Directory

end FilterSelect
