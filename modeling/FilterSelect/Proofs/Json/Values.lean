/-
Values and the documents that write them.

A document denotes a value, and a value is written as a document.  Objects are where the two
differ: a document has members in any order, repeated keys included, and a value lists them
by key.  `Canonical` says that a value does, throughout.  Whatever a document denotes is
canonical (`canonical_of_value?`), and what writes a canonical value denotes it
(`value?_ofValue`).
-/
import FilterSelect.Json.Decode
import FilterSelect.Proofs.Directory.Listing
import Mathlib.Data.List.Nodup

namespace FilterSelect

namespace Json

/-- All objects list their members by key, each key once. -/
inductive Canonical : Json → Prop
  | null : Canonical .null
  | bool (b : Bool) : Canonical (.bool b)
  | number (n : Number) : Canonical (.number n)
  | string (s : String) : Canonical (.string s)
  | array {items : List Json} (h : ∀ v ∈ items, Canonical v) : Canonical (.array items)
  | object {members : List (String × Json)} (hkeys : members.Pairwise fun a b => a.1 < b.1)
      (h : ∀ member ∈ members, Canonical member.2) : Canonical (.object members)

/-! ### Objects -/

theorem ofMembers_of_ordered {members : List (String × Json)}
    (h : members.Pairwise fun a b => a.1 < b.1) : ofMembers members = .object members := by
  rw [ofMembers, Directory.items_ofList h]

/-- Members of different keys make the same object in any order. -/
theorem ofMembers_perm {members members' : List (String × Json)} (h : members.Perm members')
    (hkeys : (members.map Prod.fst).Nodup) : ofMembers members = ofMembers members' := by
  rw [ofMembers, ofMembers, Directory.ofList_perm h hkeys]

/-- An object is canonical if its values are. -/
theorem canonical_ofMembers {members : List (String × Json)}
    (h : ∀ member ∈ members, Canonical member.2) : Canonical (ofMembers members) := by
  rw [ofMembers]
  refine .object (Directory.ordered _) fun member hmember => h member ?_
  exact Directory.mem_of_mem_ofList hmember

namespace Document

variable {d d' : Document} {items : List Document} {members : List (Option String × Document)}

/-! ### What documents denote -/

/-- The key of a member and what is read from its document. -/
def pair? {α : Type} (read : Document → Option α) (member : Option String × Document) :
    Option (String × α) :=
  match member.1, read member.2 with
  | some key, some a => some (key, a)
  | _, _ => none

theorem entries?_object {α : Type} (read : Document → Option α)
    (members : List (Option String × Document)) :
    (object members).entries? read = members.mapM (pair? read) := rfl

private theorem key_of_pair? {α : Type} {read : Document → Option α}
    {member : Option String × Document}
    {pair : String × α} (h : pair? read member = some pair) : member.1 = some pair.1 := by
  obtain ⟨key, d⟩ := member
  unfold pair? at h
  split at h
  · rename_i hkey _
    cases h
    exact hkey
  · cases h

private theorem itemValues?_eq (items : List Document) : itemValues? items = items.mapM value? := by
  induction items with
  | nil => rfl
  | cons item rest ih =>
      rw [itemValues?, ih, List.mapM_cons]
      cases item.value? with
      | none => rfl
      | some v => cases rest.mapM value? <;> rfl

private theorem memberValues?_eq (members : List (Option String × Document)) :
    memberValues? members = members.mapM (pair? value?) := by
  induction members with
  | nil => rfl
  | cons member rest ih =>
      obtain ⟨key, d⟩ := member
      cases key with
      | none => rfl
      | some key =>
          rw [memberValues?, ih, List.mapM_cons, pair?]
          cases d.value? with
          | none => rfl
          | some v => cases rest.mapM (pair? value?) <;> rfl

theorem value?_array (items : List Document) :
    (array items).value? = (items.mapM value?).map .array := by
  rw [value?, itemValues?_eq]

theorem value?_object (members : List (Option String × Document)) :
    (object members).value? = (members.mapM (pair? value?)).map Json.ofMembers := by
  rw [value?, memberValues?_eq]

/-! ### What denotes something

Whether a document denotes a value can be told part by part, without the value.
-/

private theorem isSome_mapM {α β : Type} (f : α → Option β) (l : List α) :
    (l.mapM f).isSome = l.all fun a => (f a).isSome := by
  induction l with
  | nil => rfl
  | cons a rest ih =>
      rw [List.mapM_cons, List.all_cons, ← ih]
      cases f a with
      | none => rfl
      | some b => cases rest.mapM f <;> rfl

theorem isMeaningful_array (items : List Document) :
    (array items).isMeaningful = items.all isMeaningful := by
  rw [isMeaningful, value?_array, Option.isSome_map, isSome_mapM]
  rfl

theorem isMeaningful_object (members : List (Option String × Document)) :
    (object members).isMeaningful =
      members.all fun member => member.1.isSome && member.2.isMeaningful := by
  rw [isMeaningful, value?_object, Option.isSome_map, isSome_mapM]
  congr 1
  funext member
  obtain ⟨key, d⟩ := member
  rw [pair?, isMeaningful]
  cases key with
  | none => rfl
  | some key => cases d.value? <;> rfl

/-! ### Members in another order

An object is put together by filing its members under their keys, so their order is lost where
the keys differ.
-/

theorem mapM_congr {α β : Type} {f : α → Option β} {a a' : α} (h : f a = f a')
    (before after : List α) :
    (before ++ a :: after).mapM f = (before ++ a' :: after).mapM f := by
  rw [List.mapM_append, List.mapM_append, List.mapM_cons, List.mapM_cons, h]

/-- A list in another order yields the same in that order. -/
theorem mapM_perm {α β : Type} (f : α → Option β) {l l' : List α} (h : l.Perm l') :
    Option.Rel List.Perm (l.mapM f) (l'.mapM f) := by
  induction h with
  | nil => exact .some .nil
  | @cons a rest rest' _ ih =>
      rw [List.mapM_cons, List.mapM_cons]
      generalize rest.mapM f = found at ih ⊢
      generalize rest'.mapM f = found' at ih ⊢
      cases f a with
      | none => exact .none
      | some b =>
          cases ih with
          | none => exact .none
          | some h => exact .some (h.cons b)
  | swap a a' rest =>
      rw [List.mapM_cons, List.mapM_cons, List.mapM_cons, List.mapM_cons]
      cases f a with
      | none => cases f a' <;> exact .none
      | some b =>
          cases f a' with
          | none => exact .none
          | some b' =>
              cases rest.mapM f with
              | none => exact .none
              | some found => exact .some (.swap b b' found)
  | @trans l m l' _ _ ih ih' =>
      generalize l.mapM f = found at ih ⊢
      generalize m.mapM f = between at ih ih'
      generalize l'.mapM f = found' at ih' ⊢
      cases ih with
      | none =>
          cases ih'
          exact .none
      | some h =>
          cases ih' with
          | some h' => exact .some (h.trans h')

section Entries

variable {β γ : Type} {read : Document → Option β}
  {members members' : List (Option String × Document)}

private theorem keys_of_mapM {entries : List (String × β)}
    (h : members.mapM (pair? read) = some entries) :
    members.map Prod.fst = (entries.map Prod.fst).map some := by
  induction members generalizing entries with
  | nil =>
      cases h
      rfl
  | cons member rest ih =>
      rw [List.mapM_cons] at h
      obtain ⟨entry, hentry, h⟩ := Option.bind_eq_some_iff.mp h
      obtain ⟨others, hothers, h⟩ := Option.bind_eq_some_iff.mp h
      cases h
      rw [List.map_cons, List.map_cons, List.map_cons, key_of_pair? hentry, ih hothers]

/-- What does not depend on the order of entries does not depend on that of the members. -/
theorem map_mapM_perm {make : List (String × β) → γ}
    (hmake : ∀ {entries entries' : List (String × β)}, entries.Perm entries' →
      (entries.map Prod.fst).Nodup → make entries = make entries')
    (h : members.Perm members') (hkeys : (members.map Prod.fst).Nodup) :
    (members.mapM (pair? read)).map make =
      (members'.mapM (pair? read)).map make := by
  have hperm := mapM_perm (pair? read) h
  cases hentries : members.mapM (pair? read) with
  | none =>
      rw [hentries] at hperm
      generalize members'.mapM (pair? read) = found at hperm ⊢
      cases hperm
      rfl
  | some entries =>
      rw [keys_of_mapM hentries] at hkeys
      rw [hentries] at hperm
      generalize members'.mapM (pair? read) = found at hperm ⊢
      cases hperm with
      | some h => exact congrArg some (hmake h hkeys.of_map)

end Entries

/-! ### Values are canonical -/

mutual

/-- What a document denotes is canonical. -/
theorem canonical_of_value? {d : Document} {v : Json} (h : d.value? = some v) : v.Canonical := by
  cases d with
  | null =>
      cases h
      exact .null
  | bool b =>
      cases h
      exact .bool b
  | number n =>
      cases h
      exact .number n
  | string s =>
      cases h
      exact .string s
  | array items =>
      obtain ⟨values, hvalues, rfl⟩ := Option.map_eq_some_iff.mp h
      exact .array (canonical_of_itemValues? hvalues)
  | object members =>
      obtain ⟨values, hvalues, rfl⟩ := Option.map_eq_some_iff.mp h
      exact canonical_ofMembers (canonical_of_memberValues? hvalues)
  | meaningless => cases h

theorem canonical_of_itemValues? {items : List Document} {values : List Json}
    (h : itemValues? items = some values) : ∀ v ∈ values, v.Canonical := by
  cases items with
  | nil =>
      cases h
      simp
  | cons item rest =>
      rw [itemValues?] at h
      split at h
      · rename_i hv hvalues
        cases h
        exact List.forall_mem_cons.mpr
          ⟨canonical_of_value? hv, canonical_of_itemValues? hvalues⟩
      · cases h

theorem canonical_of_memberValues? {members : List (Option String × Document)}
    {values : List (String × Json)} (h : memberValues? members = some values) :
    ∀ member ∈ values, member.2.Canonical := by
  cases members with
  | nil =>
      cases h
      simp
  | cons member rest =>
      obtain ⟨key, d⟩ := member
      cases key with
      | none => cases h
      | some key =>
          rw [memberValues?] at h
          split at h
          · rename_i hv hvalues
            cases h
            exact List.forall_mem_cons.mpr
              ⟨canonical_of_value? hv, canonical_of_memberValues? hvalues⟩
          · cases h

end

/-! ### Values are what writes them -/

private theorem ofValues_eq (values : List Json) : ofValues values = values.map ofValue := by
  induction values with
  | nil => rfl
  | cons v rest ih => rw [ofValues, ih, List.map_cons]

private theorem ofMembers_eq (members : List (String × Json)) :
    ofMembers members = members.map fun member => (some member.1, ofValue member.2) := by
  induction members with
  | nil => rfl
  | cons member rest ih =>
      obtain ⟨key, v⟩ := member
      rw [ofMembers, ih, List.map_cons]

theorem ofValue_array (items : List Json) :
    ofValue (.array items) = .array (items.map ofValue) := by
  rw [ofValue, ofValues_eq]

theorem ofValue_object (members : List (String × Json)) :
    ofValue (.object members) =
      .object (members.map fun member => (some member.1, ofValue member.2)) := by
  rw [ofValue, ofMembers_eq]

/-- What writes a value denotes it. -/
theorem value?_ofValue {v : Json} (h : v.Canonical) : (ofValue v).value? = some v := by
  induction h with
  | array _ ih => rw [ofValue_array, value?_array, mapM_map_eq ih, Option.map_some]
  | object hkeys _ ih =>
      have hmembers : ∀ member ∈ _,
          pair? value? (some member.1, ofValue member.2) = some member :=
        fun member hmember => by rw [pair?, ih member hmember]
      rw [ofValue_object, value?_object, mapM_map_eq hmembers, Option.map_some,
        Json.ofMembers_of_ordered hkeys]
  | _ => rfl

mutual

/-- What writes a value denotes something, also where the value is not canonical. -/
theorem isMeaningful_ofValue (v : Json) : (ofValue v).isMeaningful = true := by
  cases v with
  | array items =>
      rw [ofValue, isMeaningful_array]
      exact all_ofValues items
  | object members =>
      rw [ofValue, isMeaningful_object]
      exact all_ofMembers members
  | _ => rfl

theorem all_ofValues (items : List Json) : (ofValues items).all isMeaningful = true := by
  cases items with
  | nil => rfl
  | cons v rest => rw [ofValues, List.all_cons, isMeaningful_ofValue v, all_ofValues rest]; rfl

theorem all_ofMembers (members : List (String × Json)) :
    (ofMembers members).all (fun member => member.1.isSome && member.2.isMeaningful) = true := by
  cases members with
  | nil => rfl
  | cons member rest =>
      obtain ⟨key, v⟩ := member
      rw [ofMembers, List.all_cons, isMeaningful_ofValue v, all_ofMembers rest]
      rfl

end

end Document

end Json

end FilterSelect
