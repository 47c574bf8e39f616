/-
Queries in JSON.

A node of a filter tree is an object whose member `type` names its kind, among the
fields of that kind, or an array of the kind and the fields in order.  A kind is
its name; inside another node it may also be its number.  Every part of a tree
has to denote a value, also the parts that the tree does not use.

A tree is read from the leaves up: each member of a node is first read as if it
were a node, and the kind then decides which of these readings are needed.
-/
import FilterSelect.Json.Decode
import FilterSelect.Query.Basic

namespace FilterSelect

open Json

/-! ### Nodes -/

namespace FilterTree

/-- The kinds of node. -/
inductive Kind where
  | param
  | and
  | or
  | not
  | binding
deriving DecidableEq, Repr

namespace Kind

/-- All kinds; the place of a kind is its number. -/
def all : List Kind :=
  [param, and, or, not, binding]

/-- The name of a kind. -/
def name : Kind → String
  | .param => "param"
  | .and => "and"
  | .or => "or"
  | .not => "not"
  | .binding => "binding"

/-- The fields of a kind in order. -/
def fields : Kind → List String
  | .param => ["name", "filter", "value"]
  | .and | .or => ["left", "right"]
  | .not => ["inner"]
  | .binding => ["operator", "left", "right"]

/-- Reads a kind; its number counts only for an inner node. -/
def ofDocument? (isInner : Bool) : Document → Option Kind
  | .string s => all.find? fun kind => kind.name == s
  | .number (.integer n _) => if isInner ∧ 0 ≤ n then all[n.toNat]? else none
  | _ => none

end Kind

/-- A part of a node, with the tree that it writes if it is a node itself. -/
abbrev Part := Document × Option FilterTree

/-- The node of a kind with these fields. -/
def ofFields? (kind : Kind) (fields : Members Part) : Option FilterTree := do
  match kind with
  | .param =>
    let name ← fields.required "name" fun part => part.1.string?
    let filter ← fields.withDefault "filter" none fun part => part.1.nullable? Document.string?
    let value ← fields.withDefault "value" .null fun part => part.1.value?
    some (.leaf ⟨name, filter, value⟩)
  | .and =>
    let left ← fields.required "left" Prod.snd
    let right ← fields.required "right" Prod.snd
    some (.and left right)
  | .or =>
    let left ← fields.required "left" Prod.snd
    let right ← fields.required "right" Prod.snd
    some (.or left right)
  | .not =>
    let inner ← fields.required "inner" Prod.snd
    some (.not inner)
  | .binding =>
    let operator ← fields.required "operator" fun part => part.1.string?
    let left ← fields.required "left" Prod.snd
    let right ← fields.required "right" Prod.snd
    some (.binding operator left right)

/-- The node of an object. -/
def ofMembers? (isInner : Bool) (members : List (Option String × Part)) : Option FilterTree := do
  let marked ← Members.ofObject? ["type"] members
  let kind ← marked.required "type" fun part => Kind.ofDocument? isInner part.1
  let fields ← Members.ofObject? ("type" :: kind.fields) members
  ofFields? kind fields

/-- The node of an array. -/
def ofItems? (isInner : Bool) (items : List Part) : Option FilterTree :=
  match items with
  | [] => none
  | head :: rest => do
    let kind ← Kind.ofDocument? isInner head.1
    let fields ← Members.ofArray? kind.fields rest
    ofFields? kind fields

mutual

/-- Reads a node. -/
def ofDocument? (isInner : Bool) : Document → Option FilterTree
  | .object members => ofMembers? isInner (memberParts members)
  | .array items => ofItems? isInner (itemParts items)
  | _ => none

/-- The items of an array, each with the tree it writes. -/
def itemParts : List Document → List Part
  | [] => []
  | item :: rest => (item, ofDocument? true item) :: itemParts rest

/-- The members of an object, each with the tree it writes. -/
def memberParts : List (Option String × Document) → List (Option String × Part)
  | [] => []
  | (key, member) :: rest => (key, (member, ofDocument? true member)) :: memberParts rest

end

/-- The written form of a node. -/
def toJson : FilterTree → Json
  | .leaf l =>
    .object [("filter", (l.filter.map Json.string).getD .null), ("name", .string l.name),
      ("type", .string Kind.param.name), ("value", l.value)]
  | .and left right =>
    .object [("left", left.toJson), ("right", right.toJson), ("type", .string Kind.and.name)]
  | .or left right =>
    .object [("left", left.toJson), ("right", right.toJson), ("type", .string Kind.or.name)]
  | .not inner => .object [("inner", inner.toJson), ("type", .string Kind.not.name)]
  | .binding operator left right =>
    .object [("left", left.toJson), ("operator", .string operator), ("right", right.toJson),
      ("type", .string Kind.binding.name)]

end FilterTree

/-! ### Orders -/

namespace Direction

/-- The name of a direction. -/
def name : Direction → String
  | .ascending => "asc"
  | .descending => "desc"

/-- Reads a direction. -/
def ofDocument? (d : Document) : Option Direction :=
  d.name?.bind fun name => [ascending, descending].find? fun direction => direction.name == name

end Direction

namespace OrderSpec

/-- The written form of an order. -/
def toJson (o : OrderSpec) : Json :=
  .object [("direction", .string o.direction.name), ("name", .string o.name)]

/-- Reads an order, which is ascending unless it says otherwise. -/
def ofDocument? (d : Document) : Option OrderSpec := do
  let fields ← d.fields? ["name", "direction"]
  let name ← fields.required "name" Document.string?
  let direction ← fields.withDefault "direction" .ascending Direction.ofDocument?
  some ⟨name, direction⟩

end OrderSpec

/-! ### Queries -/

namespace Query

/-- The written form of a query. -/
def toJson (q : Query) : Json :=
  .object [("filter", (q.filter.map FilterTree.toJson).getD .null),
    ("orders", .array (q.orders.map OrderSpec.toJson))]

/-- Reads a filter tree all of whose parts denote something. -/
def readTree (d : Document) : Option FilterTree :=
  if d.isMeaningful then FilterTree.ofDocument? false d else none

/-- Reads a query. -/
def ofDocument? (d : Document) : Option Query := do
  let fields ← d.fields? ["filter", "orders"]
  let filter ← fields.withDefault "filter" none (Document.nullable? readTree)
  let orders ← fields.withDefault "orders" [] (Document.list? OrderSpec.ofDocument?)
  some ⟨filter, orders⟩

end Query

end FilterSelect
