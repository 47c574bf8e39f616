/-
SQL tokens and their text.

A statement is built as a list of tokens and only then written out, so no name
and no string of a filter ever meets the text of another token: identifiers and
strings are quoted by the rules of the dialect, one token at a time.

The dialects differ in the quotes of identifiers and in the escapes of strings.
The standard doubles a quote and knows no escapes; the other rule escapes with
backslashes, which PostgreSQL has to be told by an `E` in front.
-/
import FilterSelect.Text.Digits

namespace FilterSelect

namespace Sql

/-- A dialect of SQL. -/
inductive Dialect where
  | postgres
  | sqlite
  | mysql
deriving DecidableEq, Repr

/-- The name of a dialect. -/
def Dialect.name : Dialect → String
  | .postgres => "postgres"
  | .sqlite => "sqlite"
  | .mysql => "mysql"

/-- The dialect of a name. -/
def Dialect.ofName? (name : String) : Option Dialect :=
  [postgres, sqlite, mysql].find? fun dialect => dialect.name == name

/-- A word that is not quoted. -/
inductive Keyword where
  | select
  | from
  | inner
  | join
  | as
  | on
  | where
  | order
  | by
  | asc
  | desc
  | and
  | or
  | not
  | like
  | is
  | null
  | true
  | false
  | lower
deriving DecidableEq, Repr

/-- A mark of one or two characters. -/
inductive Mark where
  | star
  | dot
  | comma
  | leftParen
  | rightParen
  | equal
  | notEqual
  | less
  | lessOrEqual
  | greater
  | greaterOrEqual
deriving DecidableEq, Repr

/-- A token of a statement. -/
inductive Token where
  | keyword (word : Keyword)
  | mark (m : Mark)
  /-- A quoted name. -/
  | identifier (name : String)
  /-- A quoted string. -/
  | string (s : String)
  /-- A number, written as it stands. -/
  | number (text : List Char)
deriving DecidableEq, Repr

/-! ### The text of one token -/

/-- The spelling of a keyword. -/
def Keyword.spelling : Keyword → String
  | .select => "SELECT"
  | .from => "FROM"
  | .inner => "INNER"
  | .join => "JOIN"
  | .as => "AS"
  | .on => "ON"
  | .where => "WHERE"
  | .order => "ORDER"
  | .by => "BY"
  | .asc => "ASC"
  | .desc => "DESC"
  | .and => "AND"
  | .or => "OR"
  | .not => "NOT"
  | .like => "LIKE"
  | .is => "IS"
  | .null => "NULL"
  | .true => "TRUE"
  | .false => "FALSE"
  | .lower => "LOWER"

/-- The spelling of a mark. -/
def Mark.spelling : Mark → String
  | .star => "*"
  | .dot => "."
  | .comma => ","
  | .leftParen => "("
  | .rightParen => ")"
  | .equal => "="
  | .notEqual => "<>"
  | .less => "<"
  | .lessOrEqual => "<="
  | .greater => ">"
  | .greaterOrEqual => ">="

/-- The characters between quotes, with every quote among them doubled. -/
def doubling (quote : Char) (s : List Char) : List Char :=
  s.flatMap fun c => if c = quote then [c, c] else [c]

/-- The letter that stands for a character after a backslash. -/
def escapeLetter? (c : Char) : Option Char :=
  if c = '\\' ∨ c = '"' ∨ c = '\'' then some c
  else if c.toNat = 0 then some '0'
  else if c = '\x08' then some 'b'
  else if c = '\t' then some 't'
  else if c = '\x1a' then some 'z'
  else if c = '\n' then some 'n'
  else if c = '\r' then some 'r'
  else none

/-- The characters of a string with backslash escapes. -/
def escaping (s : List Char) : List Char :=
  s.flatMap fun c =>
    match escapeLetter? c with
    | some letter => ['\\', letter]
    | none => [c]

/-- The quote around identifiers. -/
def Dialect.identifierQuote : Dialect → Char
  | .postgres | .sqlite => '"'
  | .mysql => '\x60'

/-- A name between quotes. -/
def Dialect.quoteName (dialect : Dialect) (name : String) : List Char :=
  let quote := dialect.identifierQuote
  quote :: doubling quote name.toList ++ [quote]

/-- A string between quotes. -/
def Dialect.quoteString (dialect : Dialect) (s : String) : List Char :=
  match dialect with
  | .sqlite => '\'' :: doubling '\'' s.toList ++ ['\'']
  | .mysql => '\'' :: escaping s.toList ++ ['\'']
  | .postgres =>
    let escaped := escaping s.toList
    let quoted := '\'' :: escaped ++ ['\'']
    if escaped.contains '\\' then 'E' :: quoted else quoted

/-- The text of a token. -/
def Token.text (dialect : Dialect) : Token → List Char
  | .keyword word => word.spelling.toList
  | .mark m => m.spelling.toList
  | .identifier name => dialect.quoteName name
  | .string s => dialect.quoteString s
  | .number text => text

/-! ### The text of a statement -/

/-- Whether a blank stands between two neighbours. -/
def Token.spaced : Token → Token → Bool
  | .mark .dot, _ => false
  | .mark .leftParen, _ => false
  | _, .mark .dot => false
  | _, .mark .comma => false
  | _, .mark .rightParen => false
  | .keyword .lower, .mark .leftParen => false
  | _, _ => true

/-- The text of tokens one after another. -/
def textOf (dialect : Dialect) : List Token → List Char
  | [] => []
  | [token] => token.text dialect
  | token :: next :: rest =>
    token.text dialect ++ (if token.spaced next then [' '] else []) ++ textOf dialect (next :: rest)

end Sql

end FilterSelect
