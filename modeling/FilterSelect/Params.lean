/-
Request parameters.

A request may bring its filters as parameters, which a parser turns into a query.
The parser is told the names of the operators and of the default one.

`bracketed` is such a parser.  It reads `filter[name]` as a filter with the default
operator and `filter[name][operator]` as one with the operator named, and asks for
all of them in the order of their keys.
-/
import FilterSelect.Directory
import FilterSelect.Query.Basic

namespace FilterSelect

/-- A request parameter. -/
structure Param where
  key : String
  value : String
deriving DecidableEq, Repr

/-- Request parameters by key. -/
abbrev Params := Directory Param.key

/-- Makes parameters a query, given the operators' names and the default one, or says why not. -/
abbrev ParamsParser := Params → List String → String → Except String Query

namespace Params

/-! ### Keys in brackets -/

/-- Drops every `filter[` in front. -/
def dropOpening : List Char → List Char
  | 'f' :: 'i' :: 'l' :: 't' :: 'e' :: 'r' :: '[' :: rest => dropOpening rest
  | s => s

/-- Drops every closing bracket at the end. -/
def dropClosing (s : List Char) : List Char :=
  (s.reverse.dropWhile fun c => c == ']').reverse

/-- The parts between `][`. -/
def splitParts : List Char → List (List Char)
  | [] => [[]]
  | ']' :: '[' :: rest => [] :: splitParts rest
  | c :: rest =>
    match splitParts rest with
    | [] => [[c]]
    | part :: parts => (c :: part) :: parts

/-- The parts of a key. -/
def keyParts (key : String) : List String :=
  (splitParts (dropClosing (dropOpening key.toList))).map String.ofList

/-! ### The parser -/

/-- Why a parameter is no filter. -/
inductive Fault where
  | badKey (key : String)
  | unknownFilter (name : String)
deriving DecidableEq, Repr

/-- The wording of a fault. -/
def Fault.message : Fault → String
  | .badKey key => "bad key " ++ key
  | .unknownFilter name => "unknown filter " ++ name

/-- The logical name and the operator that a key names. -/
def readKey (defaultFilter key : String) : Except Fault (String × String) :=
  match keyParts key with
  | [name] => .ok (name, defaultFilter)
  | [name, filter] => .ok (name, filter)
  | _ => .error (.badKey key)

/-- The filter of a parameter. -/
def readLeaf (filterNames : List String) (defaultFilter : String) (param : Param) :
    Except Fault Leaf :=
  match readKey defaultFilter param.key with
  | .error fault => .error fault
  | .ok (name, filter) =>
    if filter ∈ filterNames then .ok ⟨name, some filter, .string param.value⟩
    else .error (.unknownFilter filter)

/-- All filters together, combined from the left. -/
def conjunction : List Leaf → Option FilterTree
  | [] => none
  | first :: rest => some (rest.foldl (fun tree l => .and tree (.leaf l)) (.leaf first))

/-- The filters of a list of parameters. -/
def readLeaves (filterNames : List String) (defaultFilter : String) :
    List Param → Except Fault (List Leaf)
  | [] => .ok []
  | param :: rest =>
    match readLeaf filterNames defaultFilter param with
    | .error fault => .error fault
    | .ok l => (readLeaves filterNames defaultFilter rest).map (l :: ·)

/-- The parser of keys in brackets. -/
def bracketed : ParamsParser := fun params filterNames defaultFilter =>
  match readLeaves filterNames defaultFilter params.items with
  | .error fault => .error fault.message
  | .ok leaves => .ok ⟨conjunction leaves, []⟩

end Params

end FilterSelect
