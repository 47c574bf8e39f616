/-
The text of a condition has the structure of the filter.

Parentheses are left out where the precedence of the connectives makes up for them.
Whether it does is decided here by reading: the WHERE clause of a statement, cut out of
the lexemes of the whole text, is read by the rules of SQL as the expression that has
an AND for each AND of the filter, an OR for each OR, a NOT for each NOT, and for each
leaf the comparison that the leaf's operator makes.

The induction is on the condition.  It needs of each operand which connectives stand
outside of its parentheses: none in what is not an AND or an OR, and no OR in an AND.
-/
import FilterSelect.Proofs.Evaluation.Reference
import FilterSelect.Proofs.Sql.Expression
import FilterSelect.Proofs.Sql.Statements

namespace FilterSelect

open Sql (Token Keyword Lexeme Nested Operand Expression readCondition readComparison readOperand)

/-! ### What should be read -/

/-- A column as an operand. -/
def ColumnRef.operand (c : ColumnRef) : Operand :=
  .column c.qualifier c.column

/-- The literal of a value as an operand. -/
def Value.operand (dialect : Sql.Dialect) (v : Value) : Operand :=
  .literal (v.token.lexeme dialect)

/-- The literal of a pattern as an operand. -/
def patternOperand (dialect : Sql.Dialect) (pattern : String) : Operand :=
  .literal (dialect.stringLexeme pattern)

/-- A condition as an expression. -/
def Condition.expression (dialect : Sql.Dialect) : Condition → Expression
  | .compare comparator column value =>
    .compare comparator.mark column.operand (value.operand dialect)
  | .isNull column => .isNull column.operand
  | .isNotNull column => .isNotNull column.operand
  | .like column pattern => .like column.operand (patternOperand dialect pattern)
  | .likeFolded column pattern =>
    .like (.lower column.operand) (.lower (patternOperand dialect pattern))
  | .not inner => .not (inner.expression dialect)
  | .and left right => .and (left.expression dialect) (right.expression dialect)
  | .or left right => .or (left.expression dialect) (right.expression dialect)

/-- The expression with the shape of a tree, made of expressions for its leaves. -/
def FilterTree.expression? (leaf : Leaf → Option Expression) : FilterTree → Option Expression
  | .leaf l => leaf l
  | .not inner => (inner.expression? leaf).map .not
  | .and left right => do
    let first ← left.expression? leaf
    let second ← right.expression? leaf
    some (.and first second)
  | .or left right => do
    let first ← left.expression? leaf
    let second ← right.expression? leaf
    some (.or first second)
  | .binding _ _ _ => none

/-- The comparison that the operator of a leaf makes of the leaf's column and scalar. -/
def Evaluation.leafExpression? (e : Evaluation) (dialect : Sql.Dialect)
    (used : List (List String)) (l : Leaf) : Option Expression :=
  (e.leafCondition? used l).map (Condition.expression dialect)

/-- The lexemes between WHERE and ORDER, in a statement without statements inside. -/
def Sql.whereClause? (s : List Lexeme) : Option (List Lexeme) :=
  (s.dropWhile (· ≠ .keyword .where)).tail?.map fun rest => rest.takeWhile (· ≠ .keyword .order)

/-- A condition that mirrors a tree is an expression that mirrors the tree. -/
theorem FilterTree.expression?_of_mirror? {leaf : Leaf → Option Condition} {tree : FilterTree}
    {condition : Condition} (dialect : Sql.Dialect) (h : tree.mirror? leaf = some condition) :
    tree.expression? (fun l => (leaf l).map (Condition.expression dialect)) =
      some (condition.expression dialect) := by
  induction tree generalizing condition with
  | leaf l => rw [expression?, show leaf l = some condition from h, Option.map_some]
  | not inner ih =>
      obtain ⟨x, hinner, rfl⟩ := mirror?_not h
      rw [expression?, ih hinner]
      rfl
  | and left right ihleft ihright =>
      obtain ⟨first, second, hfirst, hsecond, rfl⟩ := mirror?_and h
      rw [expression?, ihleft hfirst, ihright hsecond]
      rfl
  | or left right ihleft ihright =>
      obtain ⟨first, second, hfirst, hsecond, rfl⟩ := mirror?_or h
      rw [expression?, ihleft hfirst, ihright hsecond]
      rfl
  | binding operator left right => cases h

/-! ### Reading comparisons

A comparison is made of columns and literals, and none of these is a connective or an unmatched
parenthesis.
-/

section Comparisons

variable {dialect : Sql.Dialect}

private theorem isLiteral_stringLexeme (s : String) : (dialect.stringLexeme s).isLiteral = true :=
    by
  have hstring := dialect.isString_stringLexeme s
  cases hlexeme : dialect.stringLexeme s with
  | string content => rfl
  | escapeString written => rfl
  | _ =>
      rw [hlexeme] at hstring
      cases hstring

private theorem isLiteral_token (v : Value) : (v.token.lexeme dialect).isLiteral = true := by
  cases v with
  | bool b => cases b <;> rfl
  | string s => exact isLiteral_stringLexeme s
  | date d => exact isLiteral_stringLexeme _
  | dateTime t => exact isLiteral_stringLexeme _
  | time t => exact isLiteral_stringLexeme _
  | _ => rfl

private theorem readOperand_column (column : ColumnRef) (rest : List Lexeme) :
    readOperand (column.tokens.map (Token.lexeme dialect) ++ rest) =
      some (column.operand, rest) :=
  rfl

private theorem nested_column {words : List Keyword} {rest : List Lexeme} (column : ColumnRef)
    (hrest : Nested words rest) :
    Nested words (column.tokens.map (Token.lexeme dialect) ++ rest) :=
  .name _ (.mark (by simp) (by simp) (.name _ hrest))

private theorem isComparator_mark (c : Comparator) : c.mark.isComparator = true := by
  cases c <;> rfl

end Comparisons

/-! ### Reading conditions

By the shape of a condition it is known which connectives stand outside of its parentheses, and
parentheses are written wherever one would stand in the way.
-/

namespace Condition

/-- The lexemes of a condition. -/
def lexemes (dialect : Sql.Dialect) (c : Condition) : List Lexeme :=
  c.tokens.map (Token.lexeme dialect)

/-- The lexemes of a condition as an operand, in parentheses if that is called for. -/
def operandLexemes (dialect : Sql.Dialect) (parentheses : Bool) (c : Condition) : List Lexeme :=
  (enclosed parentheses c.tokens).map (Token.lexeme dialect)

/-- The connectives that do not stand outside of the parentheses of a condition. -/
def absent : Condition → List Keyword
  | .or _ _ => []
  | .and _ _ => [.or]
  | _ => [.and, .or]

variable {dialect : Sql.Dialect}

private theorem operandLexemes_true (c : Condition) :
    c.operandLexemes dialect true =
      .mark .leftParen :: (c.lexemes dialect ++ [.mark .rightParen]) := by
  simp [operandLexemes, enclosed, lexemes, Token.lexeme]

/-- A condition that stands without parentheses has no connectives. -/
theorem subset_absent_of_isCompound {c : Condition} (h : c.isCompound = false) :
    [.and, .or] ⊆ c.absent := by
  cases c with
  | not inner => cases h
  | and left right => cases h
  | or left right => cases h
  | _ => exact List.Subset.refl _

theorem subset_absent_of_isAnd {c : Condition} (h : (c.isCompound && !c.isAnd) = false) :
    [.or] ⊆ c.absent := by
  cases c with
  | not inner => cases h
  | or left right => cases h
  | and left right => exact List.Subset.refl _
  | _ => simp [absent]

theorem nested_operand {c : Condition} {words : List Keyword} {parentheses : Bool}
    (h : Nested c.absent (c.lexemes dialect)) (hwords : parentheses = false → words ⊆ c.absent) :
    Nested words (c.operandLexemes dialect parentheses) := by
  cases parentheses with
  | false => exact h.mono (hwords rfl)
  | true =>
      rw [operandLexemes_true]
      exact .group (h.mono (List.nil_subset _)) .nil

private theorem nested_comparison {c : Condition} (h : c.isCompound = false) :
    Nested [.and, .or] (c.lexemes dialect) := by
  cases c with
  | compare comparator column value =>
      refine nested_column column (.mark ?_ ?_ (.literal (isLiteral_token value)
        (List.Subset.refl _) .nil))
      · cases comparator <;> decide
      · cases comparator <;> decide
  | isNull column =>
      exact nested_column column (.keyword (by simp) (.keyword (by simp) .nil))
  | isNotNull column =>
      exact nested_column column
        (.keyword (by simp) (.keyword (by simp) (.keyword (by simp) .nil)))
  | like column pattern =>
      exact nested_column column (.keyword (by simp) (.literal (isLiteral_stringLexeme pattern)
        (List.Subset.refl _) .nil))
  | likeFolded column pattern =>
      have hpattern : Nested [] [dialect.stringLexeme pattern] :=
        .literal (isLiteral_stringLexeme pattern) (List.nil_subset _) .nil
      exact .keyword (by simp) (.group (nested_column column .nil)
        (.keyword (by simp) (.keyword (by simp) (.group hpattern .nil))))
  | not inner => cases h
  | and left right => cases h
  | or left right => cases h

private theorem lexemes_not (inner : Condition) :
    (not inner).lexemes dialect =
      .keyword .not :: inner.operandLexemes dialect inner.isCompound :=
  rfl

private theorem lexemes_and (left right : Condition) :
    (and left right).lexemes dialect =
      left.operandLexemes dialect (left.isCompound && !left.isAnd) ++
        .keyword .and :: right.operandLexemes dialect right.isCompound :=
  List.map_append

private theorem lexemes_or (left right : Condition) :
    (or left right).lexemes dialect =
      left.operandLexemes dialect (left.isCompound && !left.isOr) ++
        .keyword .or :: right.operandLexemes dialect right.isCompound :=
  List.map_append

theorem nested_lexemes (c : Condition) : Nested c.absent (c.lexemes dialect) := by
  induction c with
  | not inner ih =>
      show Nested [.and, .or] _
      rw [lexemes_not]
      exact .keyword (by simp) (nested_operand ih subset_absent_of_isCompound)
  | and left right ihleft ihright =>
      show Nested [.or] _
      rw [lexemes_and]
      -- to the left another AND may stand without parentheses, to the right it may not
      refine (nested_operand ihleft subset_absent_of_isAnd).append (.keyword (by simp) ?_)
      exact (nested_operand ihright subset_absent_of_isCompound).mono (by simp)
  | or left right ihleft ihright =>
      show Nested [] _
      rw [lexemes_or]
      refine (nested_operand ihleft fun _ => List.nil_subset _).append (.keyword (by simp) ?_)
      exact nested_operand ihright fun _ => List.nil_subset _
  | _ => exact nested_comparison rfl

theorem readCondition_operand {c : Condition} {x : Expression}
    (h : readCondition (c.lexemes dialect) = some x) (parentheses : Bool) :
    readCondition (c.operandLexemes dialect parentheses) = some x := by
  cases parentheses with
  | false => exact h
  | true =>
      rw [operandLexemes_true]
      exact Sql.readCondition_group (c.nested_lexemes.mono (List.nil_subset _)) h

theorem readComparison_lexemes {c : Condition} (h : c.isCompound = false) :
    readComparison (c.lexemes dialect) = some (c.expression dialect) := by
  cases c with
  | compare comparator column value =>
      exact Sql.readComparison_compare (isComparator_mark comparator) (readOperand_column column _)
        (Sql.readOperand_literal (isLiteral_token value) [])
  | isNull column => rfl
  | isNotNull column => rfl
  | like column pattern =>
      exact Sql.readComparison_like (readOperand_column column _)
        (Sql.readOperand_literal (isLiteral_stringLexeme pattern) [])
  | likeFolded column pattern =>
      have hpattern : readOperand [dialect.stringLexeme pattern, .mark .rightParen] =
          some (patternOperand dialect pattern, [.mark .rightParen]) :=
        Sql.readOperand_literal (isLiteral_stringLexeme pattern) [.mark .rightParen]
      exact Sql.readComparison_like (Sql.readOperand_lower (readOperand_column column _))
        (Sql.readOperand_lower hpattern)
  | not inner => cases h
  | and left right => cases h
  | or left right => cases h

/-- **The text of a condition is read as the condition.** -/
theorem readCondition_lexemes (c : Condition) :
    readCondition (c.lexemes dialect) = some (c.expression dialect) := by
  induction c with
  | not inner ih =>
      rw [lexemes_not]
      exact Sql.readCondition_not (nested_operand inner.nested_lexemes subset_absent_of_isCompound)
        (readCondition_operand ih _)
  | and left right ihleft ihright =>
      rw [lexemes_and]
      exact Sql.readCondition_and (nested_operand left.nested_lexemes subset_absent_of_isAnd)
        (nested_operand right.nested_lexemes subset_absent_of_isCompound)
        (readCondition_operand ihleft _) (readCondition_operand ihright _)
  | or left right ihleft ihright =>
      rw [lexemes_or]
      have hright : Nested [.or] (right.operandLexemes dialect right.isCompound) :=
        (nested_operand right.nested_lexemes subset_absent_of_isCompound).mono (by simp)
      exact Sql.readCondition_or (nested_operand left.nested_lexemes fun _ => List.nil_subset _)
        hright (readCondition_operand ihleft _) (readCondition_operand ihright _)
  | _ =>
      rw [Sql.readCondition_comparison (nested_comparison rfl) rfl rfl]
      exact readComparison_lexemes rfl

end Condition

/-! ### The WHERE clause

In the lexemes of a whole statement the word WHERE stands once at most, and the clause goes on
up to the word ORDER or to the end.
-/

section Clauses

variable {dialect : Sql.Dialect} {word : Keyword}

/-- Only a keyword is read as one, whatever stands in names and strings. -/
theorem keyword_mem_lexemes {tokens : List Token} :
    .keyword word ∈ tokens.map (Token.lexeme dialect) ↔ Token.keyword word ∈ tokens := by
  constructor
  · intro h
    obtain ⟨t, ht, heq⟩ := List.mem_map.mp h
    cases t with
    | keyword word' =>
        cases heq
        exact ht
    | string s =>
        have hstring : (Token.lexeme dialect (.string s)).isString = true :=
          dialect.isString_stringLexeme s
        rw [heq] at hstring
        cases hstring
    | _ => cases heq
  · intro h
    exact List.mem_map_of_mem h

private theorem keyword_mem_enclosed {tokens : List Token} {parentheses : Bool} :
    Token.keyword word ∈ Condition.enclosed parentheses tokens ↔ Token.keyword word ∈ tokens := by
  cases parentheses <;> simp [Condition.enclosed]

private theorem span_keyword {front : List Lexeme} (back : List Lexeme)
    (hfront : .keyword word ∉ front)
    (hback : ∀ x ∈ back.head?, x = .keyword word) :
    (front ++ back).takeWhile (· ≠ .keyword word) = front ∧
      (front ++ back).dropWhile (· ≠ .keyword word) = back := by
  refine Sql.span_append ?_ ?_
  · intro x hx
    refine decide_eq_true ?_
    rintro rfl
    exact hfront hx
  · intro x hx
    refine decide_eq_false ?_
    rw [not_not]
    exact hback x hx

theorem Sql.whereClause?_of_notMem {s : List Lexeme} (h : .keyword .where ∉ s) :
    whereClause? s = none := by
  obtain ⟨-, hdrop⟩ := span_keyword [] h (by simp)
  rw [List.append_nil] at hdrop
  rw [whereClause?, hdrop]
  rfl

/-- What stands between the first WHERE and the first ORDER after it, or the end. -/
theorem Sql.whereClause?_append {front clause back : List Lexeme}
    (hfront : .keyword .where ∉ front) (hclause : .keyword .order ∉ clause)
    (hback : ∀ x ∈ back.head?, x = .keyword .order) :
    whereClause? (front ++ .keyword .where :: (clause ++ back)) = some clause := by
  obtain ⟨-, hdrop⟩ := span_keyword (.keyword .where :: (clause ++ back)) hfront (by simp)
  obtain ⟨htake, -⟩ := span_keyword back hclause hback
  rw [whereClause?, hdrop, List.tail?_cons, Option.map_some, htake]

theorem Value.keyword_ne_token (v : Value) : v.token ≠ .keyword .order := by
  cases v with
  | null => decide
  | bool b => cases b <;> decide
  | _ => exact Token.noConfusion

theorem Condition.order_notMem_tokens (c : Condition) : Token.keyword .order ∉ c.tokens := by
  induction c with
  | compare comparator column value =>
      have hvalue := value.keyword_ne_token.symm
      simp [tokens, ColumnRef.tokens, hvalue]
  | not inner ih => simp [tokens, keyword_mem_enclosed, ih]
  | and left right ihleft ihright => simp [tokens, keyword_mem_enclosed, ihleft, ihright]
  | or left right ihleft ihright => simp [tokens, keyword_mem_enclosed, ihleft, ihright]
  | _ => simp [tokens, folded, keyword_mem_enclosed, ColumnRef.tokens]

theorem ColumnRef.keyword_notMem_tokens (c : ColumnRef) : Token.keyword word ∉ c.tokens := by
  simp [tokens]

namespace Select

/-- The tokens of a statement before its condition. -/
def frontTokens (s : Select) : List Token :=
  .keyword .select :: s.output.tokens s.table ++ [.keyword .from, .identifier s.table] ++
    s.joins.flatMap Join.tokens

/-- The tokens of a statement after its condition. -/
def backTokens (s : Select) : List Token :=
  if s.orders = [] then []
  else .keyword .order :: .keyword .by ::
    [.mark .comma].intercalate (s.orders.map Order.tokens)

private theorem where_notMem_frontTokens (s : Select) : Token.keyword .where ∉ s.frontTokens := by
  have houtput : Token.keyword .where ∉ s.output.tokens s.table := by
    cases s.output <;> simp [Output.tokens]
  simp [frontTokens, houtput, Join.tokens, ColumnRef.keyword_notMem_tokens]

private theorem where_notMem_backTokens (s : Select) : Token.keyword .where ∉ s.backTokens := by
  have horder : ∀ l ∈ s.orders.map Order.tokens, Token.keyword .where ∉ l := by
    intro l hl
    obtain ⟨o, -, rfl⟩ := List.mem_map.mp hl
    cases hdirection : o.direction <;>
      simp [Order.tokens, ColumnRef.keyword_notMem_tokens, hdirection, Direction.keyword]
  have horders : Token.keyword .where ∉
      [Token.mark .comma].intercalate (s.orders.map Order.tokens) := by
    refine intercalate_of_append (by simp) (by simp) ?_ horder
    intro front back hfront hback
    simp [hfront, hback]
  unfold backTokens
  split
  · simp
  · simp [horders]

/-- The WHERE clause of a statement is its condition; without a condition it has none. -/
theorem whereClause?_tokens (s : Select) :
    Sql.whereClause? (s.tokens.map (Token.lexeme dialect)) =
      s.condition.map (Condition.lexemes dialect) := by
  have hfront : .keyword .where ∉ s.frontTokens.map (Token.lexeme dialect) :=
    fun h => s.where_notMem_frontTokens (keyword_mem_lexemes.mp h)
  have hback : .keyword .where ∉ s.backTokens.map (Token.lexeme dialect) :=
    fun h => s.where_notMem_backTokens (keyword_mem_lexemes.mp h)
  have horder : ∀ x ∈ (s.backTokens.map (Token.lexeme dialect)).head?, x = .keyword .order := by
    intro x hx
    unfold backTokens at hx
    split at hx
    · cases hx
    · cases hx
      rfl
  cases hcondition : s.condition with
  | none =>
      have htokens : s.tokens = s.frontTokens ++ s.backTokens := by
        simp [tokens, frontTokens, backTokens, hcondition]
      rw [htokens, List.map_append]
      exact Sql.whereClause?_of_notMem fun h => (List.mem_append.mp h).elim hfront hback
  | some condition =>
      have htokens : s.tokens =
          s.frontTokens ++ .keyword .where :: (condition.tokens ++ s.backTokens) := by
        simp [tokens, frontTokens, backTokens, hcondition]
      have hclause : .keyword .order ∉ condition.lexemes dialect :=
        fun h => condition.order_notMem_tokens (keyword_mem_lexemes.mp h)
      rw [htokens, List.map_append, List.map_cons, List.map_append]
      exact Sql.whereClause?_append hfront hclause horder

end Select

end Clauses

/-! ### Endpoints -/

end FilterSelect
