/-
Reading JSON documents.

The tokens of a text are consumed one by one by a machine with a stack of the
arrays and objects that are still open.  The grammar is strict: one value, no
trailing commas, no comments, white space only around tokens.

Arrays and objects may be nested 127 deep.  What lies deeper is checked for form
but denotes nothing.
-/
import FilterSelect.Json.Token
import FilterSelect.Json.Document

namespace FilterSelect

namespace Json

namespace Reader

/-- The greatest depth of nesting at which an array or object has a value. -/
def maxDepth : Nat := 127

/-- An array or object that is still open; its finished parts are held in reverse. -/
inductive Frame where
  | array (items : List Document)
  | object (members : List (Option String × Document))
  /-- An object whose next member has this key and still lacks its value. -/
  | member (members : List (Option String × Document)) (key : Option String)

/-- What may come next. -/
inductive Expected where
  | value
  | valueOrClose
  | key
  | keyOrClose
  | colon
  | commaOrClose

/-- The open arrays and objects, innermost first, or the finished document. -/
inductive State where
  | reading (frames : List Frame) (next : Expected)
  | done (d : Document)

/-- Places a finished value into the innermost frame. -/
def place (d : Document) : List Frame → Option State
  | [] => some (.done d)
  | .array items :: outer => some (.reading (.array (d :: items) :: outer) .commaOrClose)
  | .member members key :: outer =>
    some (.reading (.object ((key, d) :: members) :: outer) .commaOrClose)
  | .object _ :: _ => none

/-- What an array or object denotes when `outer` frames are around it. -/
def atDepth (outer : List Frame) (d : Document) : Document :=
  if outer.length < maxDepth then d else .meaningless

/-- Closes the innermost frame as an array. -/
def closeArray : List Frame → Option State
  | .array items :: outer => place (atDepth outer (.array items.reverse)) outer
  | _ => none

/-- Closes the innermost frame as an object. -/
def closeObject : List Frame → Option State
  | .object members :: outer => place (atDepth outer (.object members.reverse)) outer
  | _ => none

/-- The document of a word: a keyword or a number. -/
def ofWord? (letters : List Char) : Option Document :=
  if letters = ['n', 'u', 'l', 'l'] then some .null
  else if letters = ['t', 'r', 'u', 'e'] then some (.bool true)
  else if letters = ['f', 'a', 'l', 's', 'e'] then some (.bool false)
  else
    (Numeral.ofToken? letters).map fun numeral =>
      match numeral.toNumber? with
      | some n => .number n
      | none => .meaningless

/-- The string that a content between quotes denotes, if it is well formed and denotes one. -/
def ofContent? (content : List Char) : Option (Option String) :=
  (Token.units? content).map fun units => (Token.characters? units).map String.ofList

/-- Consumes a token where a value must come. -/
def startValue (frames : List Frame) : Token → Option State
  | .openArray => some (.reading (.array [] :: frames) .valueOrClose)
  | .openObject => some (.reading (.object [] :: frames) .keyOrClose)
  | .word letters => (ofWord? letters).bind fun d => place d frames
  | .string content =>
    (ofContent? content).bind fun
      | some s => place (.string s) frames
      | none => place .meaningless frames
  | _ => none

/-- Consumes a token where a key must come. -/
def startMember (frames : List Frame) : Token → Option State
  | .string content =>
    match frames with
    | .object members :: outer =>
      (ofContent? content).map fun key => .reading (.member members key :: outer) .colon
    | _ => none
  | _ => none

/-- Consumes one token. -/
def step : State → Token → Option State
  | .done _, _ => none
  | .reading frames .value, token => startValue frames token
  | .reading frames .valueOrClose, token =>
    if token = .closeArray then closeArray frames else startValue frames token
  | .reading frames .key, token => startMember frames token
  | .reading frames .keyOrClose, token =>
    if token = .closeObject then closeObject frames else startMember frames token
  | .reading frames .colon, token =>
    if token = .colon then some (.reading frames .value) else none
  | .reading frames .commaOrClose, token =>
    match token, frames with
    | .comma, .array _ :: _ => some (.reading frames .value)
    | .comma, .object _ :: _ => some (.reading frames .key)
    | .closeArray, _ => closeArray frames
    | .closeObject, _ => closeObject frames
    | _, _ => none

/-- Consumes all tokens. -/
def run : State → List Token → Option State
  | state, [] => some state
  | state, token :: rest =>
    match step state token with
    | some state => run state rest
    | none => none

end Reader

/-- The document that a text writes. -/
def Document.ofText? (s : String) : Option Document :=
  match Token.all? s.toList with
  | none => none
  | some tokens =>
    match Reader.run (.reading [] .value) tokens with
    | some (.done d) => some d
    | _ => none

end Json

end FilterSelect
