/-
Select statements in SQL.

The tokens of a statement are the same in every dialect.  Connectives bind in the
usual order, NOT before AND before OR, and AND and OR associate to the left.
Parentheses are written around every connective inside another one, save for a
chain of one connective that leans to the left, where they would change nothing.
-/
import FilterSelect.Select.Basic
import FilterSelect.Sql.Token

namespace FilterSelect

open Sql (Token Mark Keyword Dialect)

/-! ### Columns and values -/

/-- A column, qualified. -/
def ColumnRef.tokens (c : ColumnRef) : List Token :=
  [.identifier c.qualifier, .mark .dot, .identifier c.column]

/-- The literal of a value.  Fractions of seconds have six places in SQL. -/
def Value.token : Value → Token
  | .null => .keyword .null
  | .bool true => .keyword .true
  | .bool false => .keyword .false
  | .integer i => .number (Integer64.text i)
  | .float x => .number x.plainText
  | .decimal d => .number d.text
  | .string s => .string s
  | .date d => .string (String.ofList d.text)
  | .dateTime t => .string (String.ofList (t.text ' ' 6))
  | .time t => .string (String.ofList (t.text 6))

/-! ### Conditions -/

/-- The mark of a comparator. -/
def Comparator.mark : Comparator → Mark
  | .equal => .equal
  | .notEqual => .notEqual
  | .less => .less
  | .lessOrEqual => .lessOrEqual
  | .greater => .greater
  | .greaterOrEqual => .greaterOrEqual

namespace Condition

/-- Whether a condition is made of others. -/
def isCompound : Condition → Bool
  | .not _ | .and _ _ | .or _ _ => true
  | _ => false

/-- Whether a condition is a conjunction. -/
def isAnd : Condition → Bool
  | .and _ _ => true
  | _ => false

/-- Whether a condition is a disjunction. -/
def isOr : Condition → Bool
  | .or _ _ => true
  | _ => false

/-- Tokens in parentheses if that is called for. -/
def enclosed (parentheses : Bool) (tokens : List Token) : List Token :=
  if parentheses then .mark .leftParen :: tokens ++ [.mark .rightParen] else tokens

/-- Tokens as the argument of the database's case folding. -/
def folded (tokens : List Token) : List Token :=
  .keyword .lower :: enclosed true tokens

/-- The tokens of a condition. -/
def tokens : Condition → List Token
  | .compare comparator column value =>
    column.tokens ++ [.mark comparator.mark, value.token]
  | .isNull column => column.tokens ++ [.keyword .is, .keyword .null]
  | .isNotNull column => column.tokens ++ [.keyword .is, .keyword .not, .keyword .null]
  | .like column pattern => column.tokens ++ [.keyword .like, .string pattern]
  | .likeFolded column pattern =>
    folded column.tokens ++ .keyword .like :: folded [.string pattern]
  | .not inner => .keyword .not :: enclosed inner.isCompound inner.tokens
  | .and left right =>
    enclosed (left.isCompound && !left.isAnd) left.tokens ++
      .keyword .and :: enclosed right.isCompound right.tokens
  | .or left right =>
    enclosed (left.isCompound && !left.isOr) left.tokens ++
      .keyword .or :: enclosed right.isCompound right.tokens

end Condition

/-! ### Statements -/

/-- The tokens of a join. -/
def Join.tokens (j : Join) : List Token :=
  [.keyword .inner, .keyword .join, .identifier j.table, .keyword .as, .identifier j.aliasName,
    .keyword .on] ++
    ColumnRef.tokens ⟨j.base, j.localColumn⟩ ++ .mark .equal ::
      ColumnRef.tokens ⟨j.aliasName, j.remoteColumn⟩

/-- The keyword of a direction. -/
def Direction.keyword : Direction → Keyword
  | .ascending => .asc
  | .descending => .desc

/-- The tokens of a column to order by. -/
def Order.tokens (o : Order) : List Token :=
  o.column.tokens ++ [.keyword o.direction.keyword]

/-- The columns of the result. -/
def Output.tokens (table : String) : Output → List Token
  | .everything => [.mark .star]
  | .root => [.identifier table, .mark .dot, .mark .star]

namespace Select

/-- The tokens of a statement. -/
def tokens (s : Select) : List Token :=
  .keyword .select :: s.output.tokens s.table ++
    [.keyword .from, .identifier s.table] ++
    s.joins.flatMap Join.tokens ++
    (match s.condition with
      | none => []
      | some condition => .keyword .where :: condition.tokens) ++
    (if s.orders = [] then []
      else .keyword .order :: .keyword .by ::
        [.mark .comma].intercalate (s.orders.map Order.tokens))

/-- The text of a statement. -/
def sql (s : Select) (dialect : Dialect) : String :=
  String.ofList (Sql.textOf dialect s.tokens)

end Select

end FilterSelect
