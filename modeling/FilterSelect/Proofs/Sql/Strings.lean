/-
What a string in a query can change.

A string that is compared with a string column reaches the statement as one string
constant and goes nowhere else.  Two queries that differ only in such strings have
the same joins and the same orders, conditions of the same shape, and token lists of
the same length that agree except where both have a string.  With what is known about
reading the text back, the same holds of the lexemes that the database sees.
-/
import FilterSelect.Proofs.Evaluation.PathTest
import FilterSelect.Proofs.Operators.Kinds
import FilterSelect.Proofs.Sql.Statements
import Mathlib.Data.List.Forall2

namespace FilterSelect

open Sql (Lexeme Token)

/-! ### Alike but for strings -/

/-- Two tests that ask the same, or the same with different strings. -/
inductive Test.Alike : Test → Test → Prop
  | same (test : Test) : Alike test test
  | compare (comparator : Comparator) (s s' : String) :
      Alike (.compare comparator (.string s)) (.compare comparator (.string s'))
  | like (s s' : String) : Alike (.like s) (.like s')
  | likeFolded (s s' : String) : Alike (.likeFolded s) (.likeFolded s')

/-- Two conditions of one shape, with the same columns and with tests that are alike. -/
inductive Condition.Alike : Condition → Condition → Prop
  | test {test test' : Test} (column : ColumnRef) (h : test.Alike test') :
      Alike (test.on column) (test'.on column)
  | not {inner inner' : Condition} (h : Alike inner inner') : Alike (.not inner) (.not inner')
  | and {left left' right right' : Condition} (hleft : Alike left left')
      (hright : Alike right right') : Alike (.and left right) (.and left' right')
  | or {left left' right right' : Condition} (hleft : Alike left left')
      (hright : Alike right right') : Alike (.or left right) (.or left' right')

/-- The same token, or two strings. -/
def Sql.Token.Alike (t t' : Token) : Prop :=
  t = t' ∨ ∃ s s', t = .string s ∧ t' = .string s'

/-- The same lexeme, or two string literals. -/
def Sql.Lexeme.Alike (a b : Lexeme) : Prop :=
  a = b ∨ a.isString = true ∧ b.isString = true

/-- Two filters that differ only in strings for columns of string types. -/
inductive FilterTree.Alike (scope : Scope) : FilterTree → FilterTree → Prop
  | same (l : Leaf) : Alike scope (.leaf l) (.leaf l)
  | string {name : String} {path : List String} {column : Column} (filter : Option String)
      (s s' : String) (hname : scope.destination name = .ok (path, column))
      (htype : column.type.isStringLike = true) :
      Alike scope (.leaf ⟨name, filter, .string s⟩) (.leaf ⟨name, filter, .string s'⟩)
  | not {inner inner' : FilterTree} (h : Alike scope inner inner') :
      Alike scope (.not inner) (.not inner')
  | and {left left' right right' : FilterTree} (hleft : Alike scope left left')
      (hright : Alike scope right right') : Alike scope (.and left right) (.and left' right')
  | or {left left' right right' : FilterTree} (hleft : Alike scope left left')
      (hright : Alike scope right right') : Alike scope (.or left right) (.or left' right')
  | binding {left left' right right' : FilterTree} (operator : String)
      (hleft : Alike scope left left') (hright : Alike scope right right') :
      Alike scope (.binding operator left right) (.binding operator left' right')

/-- Two queries that differ only in strings for columns of string types. -/
structure Query.Alike (scope : Scope) (query query' : Query) : Prop where
  filter : Option.Rel (FilterTree.Alike scope) query.filter query'.filter
  orders : query.orders = query'.orders

/-! ### From queries to conditions

A string for a column of strings is not converted, so it stands in the test as it is, as a
value or as a pattern.
-/

private theorem Comparison.alike_test? {c : Comparison} {s s' : String} {test test' : Test}
    (h : c.test? (some (.string s)) = some test) (h' : c.test? (some (.string s')) = some test') :
    test.Alike test' := by
  cases c <;> cases h <;> cases h' <;> constructor

private theorem Operator.test?_string {op : Operator} {given : Option Converters} {clock : DateTime}
    {type : ColumnType} (hgiven : Converters.orBuiltIn given = Converters.builtIn)
    (htype : type.isStringLike = true) (s : String) :
    op.test? given clock type (.string s) =
      if op.accepts type then op.comparison.test? (some (.string s)) else none := by
  have hvalue : valueFor given clock type (.string s) = .ok (some (.string s)) := by
    simp [valueFor, Converters.convert_string hgiven htype]
  rw [test?, hvalue]
  rfl

namespace Evaluation

variable {e : Evaluation} {used : List (List String)}

/-- What two leaves ask that differ in a string for a string column. -/
theorem alike_pathTest? {name : String} {path : List String} {column : Column}
    {filter : Option String} {s s' : String} {asked asked' : PathTest}
    (hbuiltIn : Converters.orBuiltIn (some e.converters) = Converters.builtIn)
    (hname : e.scope.destination name = .ok (path, column))
    (htype : column.type.isStringLike = true)
    (h : e.pathTest? ⟨name, filter, .string s⟩ = some asked)
    (h' : e.pathTest? ⟨name, filter, .string s'⟩ = some asked') :
    asked'.path = asked.path ∧ asked'.column = asked.column ∧ asked.test.Alike asked'.test := by
  unfold pathTest? operatorOf at h h'
  cases hop : e.registry.get (refOf filter) with
  | error fault =>
      simp [hop, Except.toOption] at h
  | ok op =>
      simp only [hop, hname, Except.toOption, Option.bind_eq_bind, Option.bind_some,
        Operator.test?_string hbuiltIn htype, Option.bind_eq_some_iff] at h h'
      obtain ⟨test, htest, hasked⟩ := h
      obtain ⟨test', htest', hasked'⟩ := h'
      cases hasked
      cases hasked'
      split at htest
      · rename_i haccepts
        rw [if_pos haccepts] at htest'
        exact ⟨rfl, rfl, Comparison.alike_test? htest htest'⟩
      · cases htest

theorem alike_leafCondition? {name : String} {path : List String} {column : Column}
    {filter : Option String} {s s' : String} {condition condition' : Condition}
    (hbuiltIn : Converters.orBuiltIn (some e.converters) = Converters.builtIn)
    (hname : e.scope.destination name = .ok (path, column))
    (htype : column.type.isStringLike = true)
    (h : e.leafCondition? used ⟨name, filter, .string s⟩ = some condition)
    (h' : e.leafCondition? used ⟨name, filter, .string s'⟩ = some condition') :
    condition.Alike condition' := by
  rw [leafCondition?_eq, Option.bind_eq_some_iff] at h h'
  obtain ⟨asked, hasked, hcondition⟩ := h
  obtain ⟨asked', hasked', hcondition'⟩ := h'
  obtain ⟨hpath, hcolumn, htest⟩ := alike_pathTest? hbuiltIn hname htype hasked hasked'
  obtain ⟨qualifier, hqualifier, rfl⟩ := Option.map_eq_some_iff.mp hcondition
  obtain ⟨qualifier', hqualifier', rfl⟩ := Option.map_eq_some_iff.mp hcondition'
  rw [hpath, hqualifier] at hqualifier'
  cases hqualifier'
  rw [hcolumn]
  exact .test _ htest

private theorem alike_refl (c : Condition) : c.Alike c := by
  induction c with
  | compare comparator column value => exact .test column (.same (.compare comparator value))
  | isNull column => exact .test column (.same .isNull)
  | isNotNull column => exact .test column (.same .isNotNull)
  | like column pattern => exact .test column (.same (.like pattern))
  | likeFolded column pattern => exact .test column (.same (.likeFolded pattern))
  | not inner ih => exact .not ih
  | and left right ihleft ihright => exact .and ihleft ihright
  | or left right ihleft ihright => exact .or ihleft ihright

/-- Filters that are alike have conditions that are alike. -/
theorem alike_mirror? {tree tree' : FilterTree} (h : tree.Alike e.scope tree')
    (hbuiltIn : Converters.orBuiltIn (some e.converters) = Converters.builtIn) :
    ∀ {condition condition' : Condition}, tree.mirror? (e.leafCondition? used) = some condition →
      tree'.mirror? (e.leafCondition? used) = some condition' → condition.Alike condition' := by
  induction h with
  | same l =>
      intro condition condition' hc hc'
      rw [hc] at hc'
      cases hc'
      exact alike_refl condition
  | string filter s s' hname htype =>
      intro condition condition' hc hc'
      exact alike_leafCondition? hbuiltIn hname htype hc hc'
  | not h ih =>
      intro condition condition' hc hc'
      obtain ⟨inner, hinner, rfl⟩ := FilterTree.mirror?_not hc
      obtain ⟨inner', hinner', rfl⟩ := FilterTree.mirror?_not hc'
      exact .not (ih hinner hinner')
  | and hleft hright ihleft ihright =>
      intro condition condition' hc hc'
      obtain ⟨first, second, hfirst, hsecond, rfl⟩ := FilterTree.mirror?_and hc
      obtain ⟨first', second', hfirst', hsecond', rfl⟩ := FilterTree.mirror?_and hc'
      exact .and (ihleft hfirst hfirst') (ihright hsecond hsecond')
  | or hleft hright ihleft ihright =>
      intro condition condition' hc hc'
      obtain ⟨first, second, hfirst, hsecond, rfl⟩ := FilterTree.mirror?_or hc
      obtain ⟨first', second', hfirst', hsecond', rfl⟩ := FilterTree.mirror?_or hc'
      exact .or (ihleft hfirst hfirst') (ihright hsecond hsecond')
  | binding operator _ _ _ _ =>
      intro condition condition' hc
      cases hc

end Evaluation

/-! ### From conditions to tokens

A value and a pattern are one token each, and no other token of a statement depends on them.
-/

section Tokens

private theorem alike_refl_tokens (tokens : List Token) : List.Forall₂ Token.Alike tokens tokens :=
  List.forall₂_same.mpr fun _ _ => Or.inl rfl

private theorem alike_append {tokens tokens' more more' : List Token}
    (h : List.Forall₂ Token.Alike tokens tokens') (hmore : List.Forall₂ Token.Alike more more') :
    List.Forall₂ Token.Alike (tokens ++ more) (tokens' ++ more') :=
  List.rel_append h hmore

private theorem alike_strings (s s' : String) : Token.Alike (.string s) (.string s') :=
  Or.inr ⟨s, s', rfl, rfl⟩

private theorem alike_enclosed {tokens tokens' : List Token}
    (h : List.Forall₂ Token.Alike tokens tokens')
    (parentheses : Bool) :
    List.Forall₂ Token.Alike (Condition.enclosed parentheses tokens)
      (Condition.enclosed parentheses tokens') := by
  unfold Condition.enclosed
  split
  · exact .cons (Or.inl rfl) (alike_append h (alike_refl_tokens _))
  · exact h

theorem Test.Alike.tokens {test test' : Test} (h : test.Alike test') (column : ColumnRef) :
    List.Forall₂ Token.Alike (test.on column).tokens (test'.on column).tokens := by
  cases h with
  | same => exact alike_refl_tokens _
  | compare comparator s s' =>
      exact alike_append (alike_refl_tokens _)
        (.cons (Or.inl rfl) (.cons (alike_strings s s') .nil))
  | like s s' =>
      exact alike_append (alike_refl_tokens _)
        (.cons (Or.inl rfl) (.cons (alike_strings s s') .nil))
  | likeFolded s s' =>
      refine alike_append (alike_refl_tokens _) (.cons (Or.inl rfl) (.cons (Or.inl rfl) ?_))
      exact alike_enclosed (.cons (alike_strings s s') .nil) true

private theorem Test.shape_on (test : Test) (column : ColumnRef) :
    (test.on column).isCompound = false ∧ (test.on column).isAnd = false ∧
      (test.on column).isOr = false := by
  cases test <;> exact ⟨rfl, rfl, rfl⟩

namespace Condition

theorem Alike.shape {c c' : Condition} (h : c.Alike c') :
    c.isCompound = c'.isCompound ∧ c.isAnd = c'.isAnd ∧ c.isOr = c'.isOr := by
  cases h with
  | @test test test' column h =>
      obtain ⟨hcompound, hand, hor⟩ := test.shape_on column
      obtain ⟨hcompound', hand', hor'⟩ := test'.shape_on column
      exact ⟨hcompound.trans hcompound'.symm, hand.trans hand'.symm, hor.trans hor'.symm⟩
  | not h => exact ⟨rfl, rfl, rfl⟩
  | and hleft hright => exact ⟨rfl, rfl, rfl⟩
  | or hleft hright => exact ⟨rfl, rfl, rfl⟩

theorem Alike.tokens {c c' : Condition} (h : c.Alike c') :
    List.Forall₂ Token.Alike c.tokens c'.tokens := by
  induction h with
  | test column h => exact h.tokens column
  | not h ih =>
      obtain ⟨hcompound, -, -⟩ := h.shape
      rw [Condition.tokens, Condition.tokens, ← hcompound]
      exact .cons (Or.inl rfl) (alike_enclosed ih _)
  | and hleft hright ihleft ihright =>
      obtain ⟨hcompound, hand, -⟩ := hleft.shape
      obtain ⟨hcompound', -, -⟩ := hright.shape
      rw [Condition.tokens, Condition.tokens, ← hcompound, ← hand, ← hcompound']
      exact alike_append (alike_enclosed ihleft _)
        (.cons (Or.inl rfl) (alike_enclosed ihright _))
  | or hleft hright ihleft ihright =>
      obtain ⟨hcompound, -, hor⟩ := hleft.shape
      obtain ⟨hcompound', -, -⟩ := hright.shape
      rw [Condition.tokens, Condition.tokens, ← hcompound, ← hor, ← hcompound']
      exact alike_append (alike_enclosed ihleft _)
        (.cons (Or.inl rfl) (alike_enclosed ihright _))

end Condition

/-- Statements that differ in their conditions only, which are alike, have tokens that are alike. -/
theorem Select.alike_tokens {s s' : Select}
    (h : Option.Rel Condition.Alike s.condition s'.condition)
    (hframe : s' = { s with condition := s'.condition }) :
    List.Forall₂ Token.Alike s.tokens s'.tokens := by
  rw [hframe]
  unfold Select.tokens
  refine alike_append (alike_append (alike_refl_tokens _) ?_) (alike_refl_tokens _)
  generalize s.condition = c at h
  generalize s'.condition = c' at h
  cases h with
  | none => exact .nil
  | some h => exact .cons (Or.inl rfl) h.tokens

/-- Tokens that are alike are read as lexemes that are alike. -/
theorem Sql.Token.Alike.lexeme {t t' : Token} (h : t.Alike t') (dialect : Sql.Dialect) :
    (t.lexeme dialect).Alike (t'.lexeme dialect) := by
  rcases h with rfl | ⟨s, s', rfl, rfl⟩
  · exact Or.inl rfl
  · exact Or.inr ⟨dialect.isString_stringLexeme s, dialect.isString_stringLexeme s'⟩

end Tokens

/-! ### Queries -/

theorem FilterTree.Alike.names {scope : Scope} {tree tree' : FilterTree}
    (h : tree.Alike scope tree') : tree.leaves.map Leaf.name = tree'.leaves.map Leaf.name := by
  induction h with
  | same l => rfl
  | string filter s s' hname htype => rfl
  | not h ih => exact ih
  | and hleft hright ihleft ihright =>
      simp only [FilterTree.leaves, List.map_append, ihleft, ihright]
  | or hleft hright ihleft ihright =>
      simp only [FilterTree.leaves, List.map_append, ihleft, ihright]
  | binding operator hleft hright ihleft ihright =>
      simp only [FilterTree.leaves, List.map_append, ihleft, ihright]

theorem Query.Alike.names {scope : Scope} {query query' : Query} (h : query.Alike scope query') :
    query.names = query'.names := by
  obtain ⟨hfilter, horders⟩ := h
  unfold Query.names
  rw [horders]
  generalize query.filter = filter at hfilter
  generalize query'.filter = filter' at hfilter
  cases hfilter with
  | none => rfl
  | some h => simp only [h.names]

/-- Queries that are alike have statements that differ in conditions only, which are alike. -/
theorem Evaluation.alike_statement? {e : Evaluation} {query query' : Query} {s s' : Select}
    (hbuiltIn : Converters.orBuiltIn (some e.converters) = Converters.builtIn)
    (halike : query.Alike e.scope query') (h : e.statement? query = some s)
    (h' : e.statement? query' = some s') :
    Option.Rel Condition.Alike s.condition s'.condition ∧
      s' = { s with condition := s'.condition } := by
  have hnames := halike.names
  obtain ⟨hfilter, horders⟩ := halike
  simp only [statement?, bind, Option.bind_eq_some_iff] at h h'
  obtain ⟨joins, hjoins, condition, hcondition, orders, hcolumns, hs⟩ := h
  obtain ⟨joins', hjoins', condition', hcondition', orders', hcolumns', hs'⟩ := h'
  rw [← hnames, hjoins] at hjoins'
  rw [← hnames, ← horders, hcolumns] at hcolumns'
  rw [← hnames] at hcondition'
  cases hjoins'
  cases hcolumns'
  cases hs
  cases hs'
  refine ⟨?_, rfl⟩
  generalize query.filter = filter at hfilter hcondition
  generalize query'.filter = filter' at hfilter hcondition'
  cases hfilter with
  | none =>
      cases hcondition
      cases hcondition'
      exact .none
  | some h =>
      obtain ⟨c, hc, rfl⟩ := Option.map_eq_some_iff.mp hcondition
      obtain ⟨c', hc', rfl⟩ := Option.map_eq_some_iff.mp hcondition'
      exact .some (alike_mirror? h hbuiltIn hc hc')

/-! ### Endpoints -/

namespace Endpoint

variable {e : Endpoint} {clock : DateTime} {query : Query} {select : Select}

end Endpoint

end FilterSelect
