/-
Directories: items filed under names of their own.

A directory holds one item per name, in the order of the names, which is the
order of their code points.  The order is part of the type, so two directories
with the same items are equal, and every listing of a directory comes out sorted.

Entities of a schema, bindings of a configuration and request parameters are kept
this way.  `find?_insert` says all there is to know about filing an item: it is
found under its name, and every other name finds what it found before.
-/

namespace FilterSelect

/-- Items filed under the names that `key` gives them, one item per name, in name order. -/
structure Directory {α : Type} (key : α → String) where
  items : List α
  ordered : items.Pairwise fun a b => key a < key b

namespace Directory

variable {α : Type} {key : α → String}

/-! ### Filing into a list -/

/-- Files an item into a list in name order, in place of one of the same name. -/
def fileInto (key : α → String) (a : α) : List α → List α
  | [] => [a]
  | b :: rest =>
    if key a < key b then a :: b :: rest
    else if key a = key b then a :: rest
    else b :: fileInto key a rest

theorem lt_of_not_lt_of_ne {s t : String} (h : ¬s < t) (hne : s ≠ t) : t < s := by
  rcases String.le_total s t with hle | hle
  · exact absurd (String.le_antisymm hle (String.not_lt.mp h)) hne
  · exact String.not_le.mp fun hst => hne (String.le_antisymm hst hle)

theorem eq_or_mem_of_mem_fileInto {a c : α} {items : List α} (h : c ∈ fileInto key a items) :
    c = a ∨ c ∈ items := by
  induction items with
  | nil => exact Or.inl (by simpa [fileInto] using h)
  | cons b rest ih =>
    simp only [fileInto] at h
    split at h
    · rcases List.mem_cons.mp h with h | h
      · exact Or.inl h
      · exact Or.inr h
    · split at h
      · rcases List.mem_cons.mp h with h | h
        · exact Or.inl h
        · exact Or.inr (List.mem_cons_of_mem _ h)
      · rcases List.mem_cons.mp h with h | h
        · exact Or.inr (h ▸ List.mem_cons_self)
        · rcases ih h with h | h
          · exact Or.inl h
          · exact Or.inr (List.mem_cons_of_mem _ h)

theorem pairwise_fileInto (a : α) {items : List α}
    (h : items.Pairwise fun a b => key a < key b) :
    (fileInto key a items).Pairwise fun a b => key a < key b := by
  induction items with
  | nil => simp [fileInto]
  | cons b rest ih =>
    obtain ⟨hb, hrest⟩ := List.pairwise_cons.mp h
    simp only [fileInto]
    split
    · rename_i hlt
      refine List.pairwise_cons.mpr ⟨fun c hc => ?_, h⟩
      rcases List.mem_cons.mp hc with rfl | hc
      · exact hlt
      · exact String.lt_trans hlt (hb c hc)
    · rename_i hnlt
      split
      · rename_i heq
        exact List.pairwise_cons.mpr ⟨fun c hc => heq ▸ hb c hc, hrest⟩
      · rename_i hne
        refine List.pairwise_cons.mpr ⟨fun c hc => ?_, ih hrest⟩
        rcases eq_or_mem_of_mem_fileInto hc with rfl | hc
        · exact lt_of_not_lt_of_ne hnlt hne
        · exact hb c hc

/-! ### Directories -/

/-- The directory without items. -/
def empty : Directory key :=
  ⟨[], List.Pairwise.nil⟩

instance : Inhabited (Directory key) := ⟨empty⟩

/-- Files an item under its name, in place of one filed there before. -/
def insert (d : Directory key) (a : α) : Directory key :=
  ⟨fileInto key a d.items, pairwise_fileInto a d.ordered⟩

/-- The item filed under a name. -/
def find? (d : Directory key) (name : String) : Option α :=
  d.items.find? fun a => key a == name

/-- Files items one after another. -/
def insertAll (d : Directory key) (items : List α) : Directory key :=
  items.foldl insert d

/-- The directory of these items; of several with one name, the last is kept. -/
def ofList (items : List α) : Directory key :=
  empty.insertAll items

/-- All items of both directories, with those of `upper` where names agree. -/
def merge (lower upper : Directory key) : Directory key :=
  lower.insertAll upper.items

/-- The names in order. -/
def names (d : Directory key) : List String :=
  d.items.map key

@[ext] theorem ext {d e : Directory key} (h : d.items = e.items) : d = e := by
  cases d; cases e; cases h; rfl

@[simp] theorem find?_empty (name : String) : (empty : Directory key).find? name = none := rfl

theorem find?_fileInto (a : α) (name : String) {items : List α}
    (h : items.Pairwise fun a b => key a < key b) :
    (fileInto key a items).find? (fun b => key b == name) =
      if key a = name then some a else items.find? fun b => key b == name := by
  induction items with
  | nil => by_cases hn : key a = name <;> simp [fileInto, hn]
  | cons b rest ih =>
    obtain ⟨hb, hrest⟩ := List.pairwise_cons.mp h
    simp only [fileInto]
    split
    · by_cases hn : key a = name <;> simp [hn]
    · rename_i hnlt
      split
      · rename_i heq
        by_cases hn : key a = name
        · simp [hn]
        · simp [hn, ← heq]
      · rename_i hne
        rw [List.find?_cons, List.find?_cons, ih hrest]
        by_cases hbn : key b = name
        · have : key a ≠ name := fun hn => hne (hn.trans hbn.symm)
          rw [beq_iff_eq.mpr hbn]
          exact (if_neg this).symm
        · rw [beq_eq_false_iff_ne.mpr hbn]

/-- An item is found under its name, and every other name finds what it found before. -/
theorem find?_insert (d : Directory key) (a : α) (name : String) :
    (d.insert a).find? name = if key a = name then some a else d.find? name :=
  find?_fileInto a name d.ordered

end Directory

end FilterSelect
