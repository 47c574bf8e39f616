/-
Structures and lists as they are written.

A structure is written as an object with one member for each field, so its reader finds the
value of each field under the name of the field (`fields?_ofValue`).  A list is written item by
item and read so.
-/
import FilterSelect.Proofs.Json.Fields
import FilterSelect.Proofs.Json.Values

namespace FilterSelect

namespace Json.Document

/-! ### Objects by their fields

A written object has exactly the fields of the structure, each once, so nothing is passed over
and nothing is given twice.
-/

/-- Mapping values, and keys to different keys, changes no look-up. -/
theorem lookup_map {κ κ' α β : Type} [BEq κ] [LawfulBEq κ] [BEq κ'] [LawfulBEq κ'] {rename : κ → κ'}
    (hrename : Function.Injective rename) (g : α → β) (members : List (κ × α)) (key : κ) :
    (members.map fun member => (rename member.1, g member.2)).lookup (rename key) =
      (members.lookup key).map g := by
  induction members with
  | nil => rfl
  | cons member rest ih =>
      obtain ⟨first, a⟩ := member
      rw [List.map_cons, List.lookup_cons, List.lookup_cons, ih]
      by_cases hkey : key = first
      · subst hkey
        simp
      · have hne : rename key ≠ rename first := fun heq => hkey (hrename heq)
        rw [beq_eq_false_iff_ne.mpr hkey, beq_eq_false_iff_ne.mpr hne]

/-- The fields of an object with different keys, each mapped to what stands for its value. -/
theorem ofObject?_map {α β : Type} (g : α → β) {members : List (String × α)}
    (hkeys : (members.map Prod.fst).Nodup) (names : List String) :
    Members.ofObject? names (members.map fun member => (some member.1, g member.2)) =
      some fun name => (members.lookup name).map g := by
  have hsome : (members.map fun member => (some member.1, g member.2)).map Prod.fst =
      (members.map Prod.fst).map some := by
    simp
  rw [Members.ofObject?_of_nodup]
  · exact congrArg some (funext (lookup_map (Option.some_injective _) g members))
  · rw [hsome]
    exact hkeys.map (Option.some_injective _)
  · rw [hsome]
    intro key hkey
    obtain ⟨name, -, rfl⟩ := List.mem_map.mp hkey
    rfl

/-- The object with these fields. -/
def ofFields (fields : List (String × Document)) : Document :=
  .object (fields.map fun field => (some field.1, field.2))

theorem fields?_ofFields {fields : List (String × Document)} (hkeys : (fields.map Prod.fst).Nodup)
    (names : List String) :
    (ofFields fields).fields? names = some fun name => fields.lookup name := by
  have hfields := ofObject?_map (id : Document → Document) hkeys names
  simp only [Option.map_id_fun, id] at hfields
  exact hfields

theorem isMeaningful_ofFields (fields : List (String × Document)) :
    (ofFields fields).isMeaningful = (fields.map Prod.snd).all isMeaningful := by
  rw [ofFields, isMeaningful_object, List.all_map, List.all_map]
  rfl

theorem fields?_ofValue {members : List (String × Json)} (hkeys : (members.map Prod.fst).Nodup)
    (names : List String) :
    (ofValue (.object members)).fields? names =
      some fun name => (members.lookup name).map ofValue := by
  rw [ofValue_object, fields?, ofObject?_map ofValue hkeys]

@[simp] theorem string?_ofValue (s : String) : (ofValue (.string s)).string? = some s := rfl

/-! ### Lists -/

/-- A written list is read item by item. -/
theorem list?_ofValue {α : Type} {read : Document → Option α} {write : α → Json}
    (h : ∀ a, read (ofValue (write a)) = some a) (as : List α) :
    (ofValue (.array (as.map write))).list? read = some as := by
  rw [ofValue_array, List.map_map, list?]
  exact mapM_map_eq fun a _ => h a

/-! ### Optional fields -/

theorem nullable?_string (s : Option String) :
    (ofValue ((s.map Json.string).getD .null)).nullable? string? = some s := by
  cases s <;> rfl

theorem read_of_nullable? {α : Type} {read : Document → Option α} {d : Document} {a : α}
    (h : d.nullable? read = some (some a)) : read d = some a := by
  cases d with
  | null => cases h
  | _ =>
      obtain ⟨b, hb, heq⟩ := Option.map_eq_some_iff.mp h
      cases heq
      exact hb

end Json.Document

end FilterSelect
