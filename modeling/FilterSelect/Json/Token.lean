/-
Splitting a JSON text into tokens.

The text is scanned once from left to right.  Outside quotes, a run of letters,
digits, signs and points is one word, which is a keyword or a number; inside
quotes, everything up to the closing quote is the content of a string, and its
escapes are resolved afterwards.
-/
import FilterSelect.Json.Numeral

namespace FilterSelect

namespace Json

/-- A token; the content of a string and a word are kept as written. -/
inductive Token where
  | openObject
  | closeObject
  | openArray
  | closeArray
  | comma
  | colon
  | string (content : List Char)
  | word (letters : List Char)
deriving DecidableEq, Repr

namespace Token

/-- The four characters that may stand between tokens. -/
def isSpace (c : Char) : Bool :=
  c == ' ' || c == '\t' || c == '\n' || c == '\r'

/-- The characters of keywords and numbers. -/
def isWordChar (c : Char) : Bool :=
  c.isAlphanum || c == '+' || c == '-' || c == '.'

/-- The token that a punctuation character is. -/
def ofChar? (c : Char) : Option Token :=
  if c = '\x7b' then some .openObject
  else if c = '\x7d' then some .closeObject
  else if c = '[' then some .openArray
  else if c = ']' then some .closeArray
  else if c = ',' then some .comma
  else if c = ':' then some .colon
  else none

/-- Where the scan stands; what has been read of a token is held in reverse. -/
inductive Place where
  | between
  | inWord (letters : List Char)
  | inString (content : List Char)
  /-- Just after a backslash in a string. -/
  | inEscape (content : List Char)

/-- The place after a character that starts a token, and the token if it is whole already. -/
def start? (c : Char) : Option (Place × Option Token) :=
  if isSpace c then some (.between, none)
  else if c = '"' then some (.inString [], none)
  else if isWordChar c then some (.inWord [c], none)
  else (ofChar? c).map fun token => (.between, some token)

/-- The tokens of a text, in reverse, in front of those found before. -/
def scan (found : List Token) : Place → List Char → Option (List Token)
  | .between, [] => some found
  | .inWord letters, [] => some (.word letters.reverse :: found)
  | .inString _, [] => none
  | .inEscape _, [] => none
  | .between, c :: rest =>
    match start? c with
    | none => none
    | some (place, token) => scan (token.toList ++ found) place rest
  | .inWord letters, c :: rest =>
    if isWordChar c then scan found (.inWord (c :: letters)) rest
    else
      match start? c with
      | none => none
      | some (place, token) => scan (token.toList ++ .word letters.reverse :: found) place rest
  | .inString content, c :: rest =>
    if c = '"' then scan (.string content.reverse :: found) .between rest
    else if c = '\\' then scan found (.inEscape (c :: content)) rest
    else scan found (.inString (c :: content)) rest
  | .inEscape content, c :: rest => scan found (.inString (c :: content)) rest

/-- The tokens of a text; none if a string is not closed or a character cannot start a token. -/
def all? (s : List Char) : Option (List Token) :=
  (scan [] .between s).map List.reverse

/-! ### Strings -/

/-- The value of a hexadecimal digit. -/
def hexValue? (c : Char) : Option Nat :=
  if c.isDigit then some (c.toNat - 48)
  else if 'a' ≤ c ∧ c ≤ 'f' then some (c.toNat - 87)
  else if 'A' ≤ c ∧ c ≤ 'F' then some (c.toNat - 55)
  else none

/-- The character that a one-letter escape stands for. -/
def escape? (c : Char) : Option Char :=
  if c = '"' ∨ c = '\\' ∨ c = '/' then some c
  else if c = 'b' then some '\x08'
  else if c = 'f' then some '\x0c'
  else if c = 'n' then some '\n'
  else if c = 'r' then some '\r'
  else if c = 't' then some '\t'
  else none

/--
The numbers that the content of a string writes: code points, and surrogates where
an escape writes one.  None if an escape is malformed or a control character
stands for itself.
-/
def units? : List Char → Option (List Nat)
  | [] => some []
  | '\\' :: 'u' :: a :: b :: c :: d :: rest => do
    let a ← hexValue? a
    let b ← hexValue? b
    let c ← hexValue? c
    let d ← hexValue? d
    let units ← units? rest
    some ((((a * 16 + b) * 16 + c) * 16 + d) :: units)
  | '\\' :: c :: rest => do
    let e ← escape? c
    let units ← units? rest
    some (e.toNat :: units)
  | c :: rest =>
    if c.toNat < 0x20 ∨ c = '\\' then none else (units? rest).map (c.toNat :: ·)

/-- The first half of a surrogate pair. -/
def isHighSurrogate (n : Nat) : Bool :=
  0xD800 ≤ n && n < 0xDC00

/-- The second half of a surrogate pair. -/
def isLowSurrogate (n : Nat) : Bool :=
  0xDC00 ≤ n && n < 0xE000

/-- The characters that these numbers denote; none if half of a surrogate pair stands alone. -/
def characters? : List Nat → Option (List Char)
  | [] => some []
  | [n] => if isHighSurrogate n || isLowSurrogate n then none else some [Char.ofNat n]
  | n :: m :: rest =>
    if isHighSurrogate n then
      if isLowSurrogate m then
        (characters? rest).map (Char.ofNat (0x10000 + (n - 0xD800) * 0x400 + (m - 0xDC00)) :: ·)
      else none
    else if isLowSurrogate n then none
    else (characters? (m :: rest)).map (Char.ofNat n :: ·)

end Token

end Json

end FilterSelect
