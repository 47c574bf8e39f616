/-
The fields of a structure, and what does not change them.

A structure is read through a function from field names to what was written for them.  What
an object has besides its fields, and in which order it has them, is lost on the way.  `Alike`
says of two such functions that they agree, name by name, as far as the reader of each field
can tell; the lemmas below establish it for objects whose members come in another order, that
have an unknown member more, or that differ in one member, and for arrays that differ in one
item.
-/
import FilterSelect.Json.Decode
import FilterSelect.Proofs.Lists
import Mathlib.Data.Option.Basic

namespace FilterSelect

namespace Json.Members

variable {α β : Type} {names : List String} {members members' : List (Option String × α)}

/-! ### Members by their keys

The conditions on an object look at its keys alone, and the fields are what is found under the
keys.
-/

/-- All keys denote strings, and no field is given twice. -/
def OneOfEach (names : List String) (keys : List (Option String)) : Prop :=
  (∀ key ∈ keys, key.isSome = true) ∧ ∀ name ∈ names, keys.count (some name) ≤ 1

private theorem ofObject?_isSome (names : List String) (members : List (Option String × α)) :
    (ofObject? names members).isSome = true ↔ OneOfEach names (members.map Prod.fst) := by
  have hcount : ∀ name : String,
      (members.countP fun member => member.1 == some name) =
        (members.map Prod.fst).count (some name) := by
    intro name
    rw [List.count, List.countP_map]
    rfl
  have hkeys : (members.all fun member => member.1.isSome) =
      (members.map Prod.fst).all Option.isSome := by
    rw [List.all_map]
    rfl
  unfold ofObject? OneOfEach
  simp only [hcount, hkeys, Bool.and_eq_true, List.all_eq_true, decide_eq_true_eq]
  split
  · rename_i h
    exact ⟨fun _ => h, fun _ => rfl⟩
  · rename_i h
    exact ⟨fun hsome => absurd hsome Bool.false_ne_true, fun h' => absurd h' h⟩

theorem lookup_of_ofObject? {fields : Members α} (h : ofObject? names members = some fields) :
    fields = fun name => members.lookup (some name) := by
  unfold ofObject? at h
  dsimp only at h
  split at h <;> cases h
  rfl

theorem ofObject?_of_oneOfEach (h : OneOfEach names (members.map Prod.fst)) :
    ofObject? names members = some fun name => members.lookup (some name) := by
  obtain ⟨fields, hfields⟩ := Option.isSome_iff_exists.mp ((ofObject?_isSome names members).mpr h)
  rw [hfields, lookup_of_ofObject? hfields]

theorem ofObject?_eq_none (h : ¬OneOfEach names (members.map Prod.fst)) :
    ofObject? names members = none := by
  rwa [← ofObject?_isSome, Option.not_isSome_iff_eq_none] at h

/-- Members with different keys are all fields that there are. -/
theorem ofObject?_of_nodup (hkeys : (members.map Prod.fst).Nodup)
    (hsome : ∀ key ∈ members.map Prod.fst, key.isSome = true) :
    ofObject? names members = some fun name => members.lookup (some name) :=
  ofObject?_of_oneOfEach ⟨hsome, fun name _ => List.nodup_iff_count_le_one.mp hkeys (some name)⟩

@[simp] theorem lookup_cons_of_ne {κ : Type} [BEq κ] {first key : κ}
    (h : (key == first) = false) (a : α) (members : List (κ × α)) :
    ((first, a) :: members).lookup key = members.lookup key := by
  rw [List.lookup_cons, h]

theorem mem_of_lookup {κ : Type} [BEq κ] [LawfulBEq κ] {members : List (κ × α)} {key : κ} {a : α}
    (h : members.lookup key = some a) : (key, a) ∈ members := by
  obtain ⟨before, after, rfl, -⟩ := List.lookup_eq_some_iff.mp h
  exact List.mem_append_right _ List.mem_cons_self

private theorem lookup_perm (h : members.Perm members') (hkeys : (members.map Prod.fst).Nodup)
    (key : Option String) : members.lookup key = members'.lookup key := by
  have hkeys' := (h.map Prod.fst).nodup_iff.mp hkeys
  ext a
  rw [lookup_eq_some_iff_mem hkeys, lookup_eq_some_iff_mem hkeys', h.mem_iff]

/-! ### Objects and arrays with the same fields

What counts is which keys there are, how often, and what is found first under each name.  Any
change that keeps these keeps the fields.
-/

/-- Fields that agree name by name, or that are not there on either side. -/
def Alike (R : String → α → α → Prop) (names : List String) : (_ _ : Option (Members α)) → Prop :=
  Option.Rel fun fields fields' => ∀ name ∈ names, Option.Rel (R name) (fields name) (fields' name)

variable {R : String → α → α → Prop}

theorem rel_refl {S : α → α → Prop} (hrefl : ∀ a, S a a) (a : Option α) : Option.Rel S a a := by
  cases a with
  | none => exact .none
  | some a => exact .some (hrefl a)

/-- Objects are alike if they have the same keys as often, and find the like under each name. -/
theorem alike_of_lookup (hkeys : (∀ key ∈ members.map Prod.fst, key.isSome = true) ↔
      ∀ key ∈ members'.map Prod.fst, key.isSome = true)
    (hcount : ∀ name ∈ names, (members.map Prod.fst).count (some name) =
      (members'.map Prod.fst).count (some name))
    (hlookup : ∀ name ∈ names,
      Option.Rel (R name) (members.lookup (some name)) (members'.lookup (some name))) :
    Alike R names (ofObject? names members) (ofObject? names members') := by
  have hboth : OneOfEach names (members.map Prod.fst) ↔
      OneOfEach names (members'.map Prod.fst) := by
    refine and_congr hkeys (forall₂_congr fun name hname => ?_)
    rw [hcount name hname]
  unfold Alike
  by_cases h : OneOfEach names (members.map Prod.fst)
  · rw [ofObject?_of_oneOfEach h, ofObject?_of_oneOfEach (hboth.mp h)]
    exact .some hlookup
  · rw [ofObject?_eq_none h, ofObject?_eq_none fun h' => h (hboth.mpr h')]
    exact .none

theorem alike_perm (hrefl : ∀ name a, R name a a) (names : List String)
    (h : members.Perm members') (hkeys : (members.map Prod.fst).Nodup) :
    Alike R names (ofObject? names members) (ofObject? names members') := by
  have hperm := h.map Prod.fst
  refine alike_of_lookup ?_ ?_ ?_
  · exact forall_congr' fun key => by rw [hperm.mem_iff]
  · intro name _
    exact hperm.count_eq (some name)
  · intro name _
    rw [lookup_perm h hkeys]
    exact rel_refl (hrefl name) _

theorem alike_cons (hrefl : ∀ name a, R name a a) {key : String} (hkey : key ∉ names) (a : α)
    (members : List (Option String × α)) :
    Alike R names (ofObject? names members) (ofObject? names ((some key, a) :: members)) := by
  have hne : ∀ name ∈ names, some name ≠ some key := by
    rintro name hname heq
    cases heq
    exact hkey hname
  refine alike_of_lookup ?_ ?_ ?_
  · simp
  · intro name hname
    rw [List.map_cons, List.count_cons_of_ne (hne name hname).symm]
  · intro name hname
    rw [List.lookup_cons, beq_eq_false_iff_ne.mpr (hne name hname)]
    exact rel_refl (hrefl name) _

private theorem lookup_alike {κ : Type} [BEq κ] [LawfulBEq κ] {S : α → α → Prop}
    (hrefl : ∀ a, S a a)
    {key name : κ} {a a' : α} (h : name = key → S a a') (before after : List (κ × α)) :
    Option.Rel S ((before ++ (key, a) :: after).lookup name)
      ((before ++ (key, a') :: after).lookup name) := by
  induction before with
  | nil =>
      rw [List.nil_append, List.nil_append, List.lookup_cons, List.lookup_cons]
      split
      · rename_i hname
        exact .some (h (beq_iff_eq.mp hname))
      · exact rel_refl hrefl _
  | cons pair before ih =>
      rw [List.cons_append, List.cons_append, List.lookup_cons, List.lookup_cons]
      split
      · exact .some (hrefl _)
      · exact ih

/-- A member can be written in another way that reads alike. -/
theorem alike_member (hrefl : ∀ name a, R name a a) (names : List String) {key : String} {a a' : α}
    (h : R key a a') (before after : List (Option String × α)) :
    Alike R names (ofObject? names (before ++ (some key, a) :: after))
      (ofObject? names (before ++ (some key, a') :: after)) := by
  refine alike_of_lookup (by simp) (by simp) fun name _ => ?_
  refine lookup_alike (hrefl name) (fun hname => ?_) before after
  cases hname
  exact h

/-- An item can be written in another way that reads alike as the field it is. -/
theorem alike_item (hrefl : ∀ name a, R name a a) {key : String} {a a' : α} {before : List α}
    (hkey : names[before.length]? = some key) (h : R key a a') (after : List α) :
    Alike R names (ofArray? names (before ++ a :: after))
      (ofArray? names (before ++ a' :: after)) := by
  obtain ⟨hlt, rfl⟩ := List.getElem?_eq_some_iff.mp hkey
  have hzip : ∀ b : α, names.zip (before ++ b :: after) =
      (names.take before.length).zip before ++
        (names[before.length], b) :: (names.drop (before.length + 1)).zip after := by
    intro b
    have hbefore : (names.take before.length).length = before.length := by
      rw [List.length_take, Nat.min_eq_left (Nat.le_of_lt hlt)]
    rw [← List.zip_cons_cons, ← List.zip_append hbefore, List.getElem_cons_drop,
      List.take_append_drop]
  have hlength : (before ++ a' :: after).length = (before ++ a :: after).length := by simp
  unfold ofArray?
  rw [hlength, hzip a, hzip a']
  split
  · refine .some fun name _ => lookup_alike (hrefl name) (fun hname => ?_) _ _
    exact hname ▸ h
  · exact .none

/-! ### Reading like fields -/

theorem bind_alike {found found' : Option (Members α)} {read read' : Members α → Option β}
    (h : Alike R names found found')
    (hread : ∀ fields fields', found = some fields →
      (∀ name ∈ names, Option.Rel (R name) (fields name) (fields' name)) →
        read fields = read' fields') :
    found.bind read = found'.bind read' := by
  cases h with
  | none => rfl
  | some h => exact hread _ _ rfl h

variable {fields fields' : Members α} {name : String} {read : α → Option β}

theorem withDefault_eq_elim (fields : Members α) (name : String) (default : β)
    (read : α → Option β) :
    fields.withDefault name default read = (fields name).elim (some default) read := by
  unfold withDefault
  cases fields name <;> rfl

theorem required_congr {S : α → α → Prop} (h : Option.Rel S (fields name) (fields' name))
    (hread : ∀ a a', S a a' → read a = read a') :
    fields.required name read = fields'.required name read := by
  unfold required
  generalize fields name = a at h ⊢
  generalize fields' name = a' at h ⊢
  cases h with
  | none => rfl
  | some h => exact hread _ _ h

theorem withDefault_congr {S : α → α → Prop} {default : β}
    (h : Option.Rel S (fields name) (fields' name)) (hread : ∀ a a', S a a' → read a = read a') :
    fields.withDefault name default read = fields'.withDefault name default read := by
  unfold withDefault
  generalize fields name = a at h ⊢
  generalize fields' name = a' at h ⊢
  cases h with
  | none => rfl
  | some h => exact hread _ _ h

end Json.Members

end FilterSelect
