/-
Reading structures out of documents.

A structure is written as an object or as the array of its fields in their
declared order.  In an object, members of other names are passed over and a field
may be given once only; in an array, fields with a default may be left out at the
end.  Either way the reader gets a function from field names to what was written
for them, and the two ways need no further distinction.
-/
import FilterSelect.Json.Document

namespace FilterSelect

namespace Json

/-- What was written for each field of a structure. -/
abbrev Members (α : Type) := String → Option α

namespace Members

/-- The fields of an object: every key denotes a string, and no name in `names` occurs twice. -/
def ofObject? {α : Type} (names : List String) (members : List (Option String × α)) :
    Option (Members α) :=
  let occurrences (name : String) : Nat := members.countP fun member => member.1 == some name
  if (members.all fun member => member.1.isSome) && (names.all fun name => occurrences name ≤ 1)
  then some fun name => members.lookup (some name)
  else none

/-- The fields of an array, which has no more items than there are names. -/
def ofArray? {α : Type} (names : List String) (items : List α) : Option (Members α) :=
  if items.length ≤ names.length then some fun name => (names.zip items).lookup name else none

/-- A field that must be given. -/
def required {α β : Type} (members : Members α) (name : String) (read : α → Option β) :
    Option β :=
  (members name).bind read

/-- A field that may be left out. -/
def withDefault {α β : Type} (members : Members α) (name : String) (default : β)
    (read : α → Option β) : Option β :=
  match members name with
  | some a => read a
  | none => some default

end Members

namespace Document

/-- The fields of a structure with these names in declared order. -/
def fields? (names : List String) : Document → Option (Members Document)
  | .object members => Members.ofObject? names members
  | .array items => Members.ofArray? names items
  | _ => none

/-- A string. -/
def string? : Document → Option String
  | .string s => some s
  | _ => none

/-- `null`, or what `read` accepts. -/
def nullable? {α : Type} (read : Document → Option α) : Document → Option (Option α)
  | .null => some none
  | d => (read d).map some

/-- An array of what `read` accepts. -/
def list? {α : Type} (read : Document → Option α) : Document → Option (List α)
  | .array items => items.mapM read
  | _ => none

/-- An object of what `read` accepts, as pairs in the order written. -/
def entries? {α : Type} (read : Document → Option α) : Document → Option (List (String × α))
  | .object members => members.mapM fun (key, d) =>
    match key, read d with
    | some key, some a => some (key, a)
    | _, _ => none
  | _ => none

/-- A name out of a fixed list: a string, or an object with that name as only key, over `null`. -/
def name? : Document → Option String
  | .string s => some s
  | .object [(some s, .null)] => some s
  | _ => none

end Document

end Json

end FilterSelect
