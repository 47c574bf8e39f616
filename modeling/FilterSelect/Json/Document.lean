/-
JSON documents as they were written.

A document keeps what a value forgets and a reader of structures has to know: the
members of an object in the order written, with repeated keys.  It also has room
for text that is well formed and yet denotes nothing, such as a number beyond the
finite range or half of a surrogate pair.  Such text is an error where it is
read, and harmless where it is passed over.
-/
import FilterSelect.Json.Basic

namespace FilterSelect

namespace Json

/-- A JSON text, read but not interpreted. -/
inductive Document where
  | null
  | bool (b : Bool)
  | number (n : Number)
  | string (s : String)
  | array (items : List Document)
  /-- The members as written; a key that denotes no string is absent. -/
  | object (members : List (Option String × Document))
  /-- Well-formed text that denotes no value. -/
  | meaningless

namespace Document

instance : Inhabited Document := ⟨.null⟩

mutual

/-- The value that a document denotes; of members with the same key the last one counts. -/
def value? : Document → Option Json
  | .null => some .null
  | .bool b => some (.bool b)
  | .number n => some (.number n)
  | .string s => some (.string s)
  | .array items => (itemValues? items).map .array
  | .object members => (memberValues? members).map Json.ofMembers
  | .meaningless => none

/-- The values of all items. -/
def itemValues? : List Document → Option (List Json)
  | [] => some []
  | item :: rest =>
    match item.value?, itemValues? rest with
    | some v, some vs => some (v :: vs)
    | _, _ => none

/-- The keys and values of all members. -/
def memberValues? : List (Option String × Document) → Option (List (String × Json))
  | [] => some []
  | (some key, member) :: rest =>
    match member.value?, memberValues? rest with
    | some v, some vs => some ((key, v) :: vs)
    | _, _ => none
  | (none, _) :: _ => none

end

/-- Whether every part of a document denotes something. -/
def isMeaningful (d : Document) : Bool :=
  d.value?.isSome

mutual

/-- The document that writes a value. -/
def ofValue : Json → Document
  | .null => .null
  | .bool b => .bool b
  | .number n => .number n
  | .string s => .string s
  | .array items => .array (ofValues items)
  | .object members => .object (ofMembers members)

/-- The documents that write a list of values. -/
def ofValues : List Json → List Document
  | [] => []
  | v :: rest => ofValue v :: ofValues rest

/-- The members that write a list of members. -/
def ofMembers : List (String × Json) → List (Option String × Document)
  | [] => []
  | (key, v) :: rest => (some key, ofValue v) :: ofMembers rest

end

end Document

end Json

end FilterSelect
