/-
Queries: a tree of filters and an ordering.

A leaf compares what a logical name is bound to with a raw scalar.  Leaves are
combined by the three connectives; a combination by any other operator can be
written down and handed on, but has no meaning to an evaluation.
-/
import FilterSelect.Json.Basic
import FilterSelect.Select.Basic

namespace FilterSelect

/-- One filter on a logical name. -/
structure Leaf where
  name : String
  /-- The name of the operator; the registry's default if absent. -/
  filter : Option String
  value : Json

/-- A tree of filters. -/
inductive FilterTree where
  | leaf (l : Leaf)
  | and (left right : FilterTree)
  | or (left right : FilterTree)
  | not (inner : FilterTree)
  /-- Two trees under an operator of some other origin. -/
  | binding (operator : String) (left right : FilterTree)

/-- A logical name to order by. -/
structure OrderSpec where
  name : String
  direction : Direction
deriving DecidableEq, Repr

/-- What a request asks for. -/
structure Query where
  filter : Option FilterTree
  orders : List OrderSpec

namespace FilterTree

/-- The filters of a tree from left to right. -/
def leaves : FilterTree → List Leaf
  | .leaf l => [l]
  | .and left right | .or left right | .binding _ left right => left.leaves ++ right.leaves
  | .not inner => inner.leaves

end FilterTree

namespace Query

/-- The logical names that a query uses, filters before orders. -/
def names (q : Query) : List String :=
  (match q.filter with
    | none => []
    | some tree => tree.leaves.map Leaf.name) ++ q.orders.map OrderSpec.name

end Query

end FilterSelect
