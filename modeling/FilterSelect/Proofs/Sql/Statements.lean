/-
The text of a statement is read as its tokens.

In a statement every dot stands right after a name and right before a name or a star,
and every number is a numeral, so that each token ends where it should.  Then the
text of a whole statement is read, lexeme by lexeme, as the tokens that it was
written from.  Nothing is assumed of the names and the strings in it.
-/
import FilterSelect.Endpoint
import FilterSelect.Proofs.Sql.Numerals

namespace FilterSelect

namespace Sql

/-- Every dot follows a name, and every number is a numeral. -/
inductive Legible : List Token → Prop
  | nil : Legible []
  | cons {t : Token} {rest : List Token} (hdot : t ≠ .mark .dot) (ht : t.Readable)
      (hrest : Legible rest) : Legible (t :: rest)
  | qualified {name : String} {t : Token} {rest : List Token} (hdot : t ≠ .mark .dot)
      (ht : t.Readable) (hrest : Legible rest) :
      Legible (.identifier name :: .mark .dot :: t :: rest)

theorem Legible.append {tokens more : List Token} (h : Legible tokens) (hmore : Legible more) :
    Legible (tokens ++ more) := by
  induction h with
  | nil => exact hmore
  | cons hdot ht _ ih => exact .cons hdot ht ih
  | qualified hdot ht _ ih => exact .qualified hdot ht ih

private theorem Legible.head_ne {next : Token} {rest : List Token} (h : Legible (next :: rest)) :
    next ≠ .mark .dot := by
  cases h with
  | cons hdot _ _ => exact hdot
  | qualified _ _ _ => exact Token.noConfusion

/-! ### What follows a token

A blank keeps two tokens apart, unless one of them is a dot or a parenthesis or the second is a
comma.
-/

/-- The text that follows a token in a list. -/
def textAfter (dialect : Dialect) (t : Token) : List Token → List Char
  | [] => []
  | next :: rest => (if t.spaced next then [' '] else []) ++ textOf dialect (next :: rest)

variable {dialect : Dialect}

private theorem textOf_cons (t : Token) (rest : List Token) :
    textOf dialect (t :: rest) = t.text dialect ++ textAfter dialect t rest := by
  cases rest with
  | nil => exact (List.append_nil _).symm
  | cons next rest => rw [textOf, textAfter, List.append_assoc]

private theorem lex_textAfter (t : Token) (rest : List Token) :
    lex dialect (textAfter dialect t rest) = lex dialect (textOf dialect rest) := by
  cases rest with
  | nil => rfl
  | cons next rest =>
      rw [textAfter]
      cases t.spaced next with
      | true => exact lex_blank dialect _
      | false => rfl

private theorem lex_textOf_cons {t : Token} {rest : List Token} (ht : t.Readable)
    (h : t.EndsBefore dialect (textAfter dialect t rest)) :
    lex dialect (textOf dialect (t :: rest)) =
      (lex dialect (textOf dialect rest)).map (t.lexeme dialect :: ·) := by
  rw [textOf_cons, lex_text ht h, lex_textAfter]

private theorem endsBefore_cons (t : Token) {c : Char} (hc : c = ' ' ∨ c = ',' ∨ c = ')')
    (s : List Char) : t.EndsBefore dialect (c :: s) := by
  have hhead : ∀ d ∈ (c :: s).head?, d = ' ' ∨ d = ',' ∨ d = ')' := by
    intro d hd
    cases hd
    exact hc
  have hquote : ∀ d ∈ (c :: s).head?, d ≠ dialect.identifierQuote := by
    intro d hd
    refine identifierQuote_ne dialect ?_
    rcases hhead d hd with rfl | rfl | rfl <;> decide
  cases t with
  | identifier name => exact hquote
  | mark m =>
      cases m
      all_goals first
        | trivial
        | (intro d hd; rcases hhead d hd with rfl | rfl | rfl <;> decide)
  | _ =>
      intro d hd
      rcases hhead d hd with rfl | rfl | rfl <;> decide

private theorem endsBefore_nil (t : Token) : t.EndsBefore dialect [] := by
  cases t with
  | mark m =>
      cases m
      all_goals first
        | trivial
        | (intro d hd; cases hd)
  | _ =>
      intro d hd
      cases hd

/-- A token ends before the next one, if neither is a dot. -/
theorem endsBefore_textAfter {t : Token} {rest : List Token} (hdot : t ≠ .mark .dot)
    (hnext : ∀ next ∈ rest.head?, next ≠ .mark .dot) :
    t.EndsBefore dialect (textAfter dialect t rest) := by
  cases rest with
  | nil => exact endsBefore_nil t
  | cons next rest =>
      have hne : next ≠ .mark .dot := hnext next rfl
      rw [textAfter, textOf_cons]
      cases hspaced : t.spaced next with
      | true => exact endsBefore_cons t (Or.inl rfl) _
      | false =>
          unfold Token.spaced at hspaced
          split at hspaced
          · exact absurd rfl hdot
          · trivial
          · exact absurd rfl hne
          · exact endsBefore_cons t (Or.inr (Or.inl rfl)) _
          · exact endsBefore_cons t (Or.inr (Or.inr rfl)) _
          · intro d hd
            cases hd
            rfl
          · cases hspaced

/-- **Tokens are read back from their text, each as it was written.** -/
theorem lex_textOf {tokens : List Token} (h : Legible tokens) :
    lex dialect (textOf dialect tokens) = some (tokens.map (Token.lexeme dialect)) := by
  have hnext : ∀ {rest : List Token}, Legible rest → ∀ next ∈ rest.head?, next ≠ .mark .dot := by
    intro rest hrest next hmem
    cases rest with
    | nil => cases hmem
    | cons first rest =>
        cases hmem
        exact hrest.head_ne
  induction h with
  | nil => exact lex_nil dialect
  | cons hdot ht hrest ih =>
      rw [lex_textOf_cons ht (endsBefore_textAfter hdot (hnext hrest)), ih]
      rfl
  | @qualified name t rest hdot ht hrest ih =>
      have hname : lex dialect (textOf dialect (.identifier name :: .mark .dot :: t :: rest)) =
          (lex dialect (textOf dialect (.mark .dot :: t :: rest))).map (.name name :: ·) := by
        refine lex_textOf_cons (t := .identifier name) trivial ?_
        intro c hc
        cases hc
        exact identifierQuote_ne dialect (by decide)
      have hmark : lex dialect (textOf dialect (.mark .dot :: t :: rest)) =
          (lex dialect (textOf dialect (t :: rest))).map (.mark .dot :: ·) :=
        lex_textOf_cons (t := .mark .dot) trivial trivial
      rw [hname, hmark, lex_textOf_cons ht (endsBefore_textAfter hdot (hnext hrest)), ih]
      rfl

end Sql

/-! ### Statements -/

open Sql (Legible Token)

theorem legible_singleton {t : Token} (hdot : t ≠ .mark .dot) (ht : t.Readable) : Legible [t] :=
  .cons hdot ht .nil

theorem ColumnRef.legible (c : ColumnRef) : Legible c.tokens :=
  .qualified Token.noConfusion trivial .nil

theorem Value.legible (v : Value) : Legible [v.token] := by
  cases v with
  | integer i => exact legible_singleton Token.noConfusion (numeral_integer i)
  | float x => exact legible_singleton Token.noConfusion (numeral_double x)
  | decimal d => exact legible_singleton Token.noConfusion (numeral_decimal d)
  | bool b => cases b <;> exact legible_singleton Token.noConfusion trivial
  | _ => exact legible_singleton Token.noConfusion trivial

namespace Condition

theorem legible_enclosed {tokens : List Token} (h : Legible tokens) (parentheses : Bool) :
    Legible (enclosed parentheses tokens) := by
  unfold enclosed
  split
  · exact .cons (by simp) trivial (h.append (legible_singleton (by simp) trivial))
  · exact h

theorem legible_folded {tokens : List Token} (h : Legible tokens) : Legible (folded tokens) :=
  .cons Token.noConfusion trivial (legible_enclosed h true)

theorem legible (c : Condition) : Legible c.tokens := by
  induction c with
  | compare comparator column value =>
      refine column.legible.append (.cons ?_ trivial value.legible)
      cases comparator <;> decide
  | isNull column =>
      exact column.legible.append (.cons (by simp) trivial (legible_singleton (by simp) trivial))
  | isNotNull column =>
      exact column.legible.append (.cons (by simp) trivial
        (.cons (by simp) trivial (legible_singleton (by simp) trivial)))
  | like column pattern =>
      exact column.legible.append
        (.cons (by simp) trivial (legible_singleton Token.noConfusion trivial))
  | likeFolded column pattern =>
      exact (legible_folded column.legible).append (.cons (by simp) trivial
        (legible_folded (legible_singleton Token.noConfusion trivial)))
  | not inner ih => exact .cons (by simp) trivial (legible_enclosed ih _)
  | and left right ihleft ihright =>
      exact (legible_enclosed ihleft _).append
        (.cons (by simp) trivial (legible_enclosed ihright _))
  | or left right ihleft ihright =>
      exact (legible_enclosed ihleft _).append
        (.cons (by simp) trivial (legible_enclosed ihright _))

end Condition

theorem Join.legible (j : Join) : Legible j.tokens := by
  refine Legible.append (Legible.append ?_ (ColumnRef.legible _))
    (.cons (by simp) trivial (ColumnRef.legible _))
  exact .cons (by simp) trivial (.cons (by simp) trivial (.cons Token.noConfusion trivial
    (.cons (by simp) trivial (.cons Token.noConfusion trivial
      (legible_singleton (by simp) trivial)))))

theorem Order.legible (o : Order) : Legible o.tokens :=
  o.column.legible.append (legible_singleton (by cases o.direction <;> decide) trivial)

theorem Output.legible (output : Output) (table : String) : Legible (output.tokens table) := by
  cases output with
  | everything => exact legible_singleton (by simp) trivial
  | root => exact .qualified (by simp) trivial .nil

/-- What holds of lists and goes over to appended ones holds of the lists with separators. -/
theorem intercalate_of_append {α : Type} {P : List α → Prop} {separator : List α}
    {lists : List (List α)} (hnil : P []) (hseparator : P separator)
    (happend : ∀ {front back : List α}, P front → P back → P (front ++ back))
    (h : ∀ l ∈ lists, P l) : P (separator.intercalate lists) := by
  induction lists with
  | nil => exact hnil
  | cons first rest ih =>
      have hfirst := h first List.mem_cons_self
      cases rest with
      | nil => simpa [List.intercalate] using hfirst
      | cons second rest =>
          have hrest := ih fun l hl => h l (List.mem_cons_of_mem first hl)
          rw [List.intercalate_cons_cons]
          exact happend (happend hfirst hseparator) hrest

namespace Select

theorem legible (s : Select) : Legible s.tokens := by
  have houtput : Legible (.keyword .select :: s.output.tokens s.table) :=
    .cons (by simp) trivial (s.output.legible s.table)
  have hfrom : Legible [.keyword .from, .identifier s.table] :=
    .cons (by simp) trivial (legible_singleton Token.noConfusion trivial)
  have hjoins : Legible (s.joins.flatMap Join.tokens) := by
    induction s.joins with
    | nil => exact .nil
    | cons j rest ih => exact j.legible.append ih
  unfold tokens
  refine (((houtput.append hfrom).append hjoins).append ?_).append ?_
  · split
    · exact .nil
    · exact .cons (by simp) trivial (Condition.legible _)
  · split
    · exact .nil
    · refine .cons (by simp) trivial (.cons (by simp) trivial ?_)
      refine intercalate_of_append .nil (legible_singleton (by simp) trivial) Legible.append ?_
      intro l hl
      obtain ⟨o, -, rfl⟩ := List.mem_map.mp hl
      exact o.legible

/-- The text of a statement is read as its tokens, in every dialect. -/
theorem lex_sql (s : Select) (dialect : Sql.Dialect) :
    Sql.lex dialect (s.sql dialect).toList = some (s.tokens.map (Token.lexeme dialect)) := by
  rw [sql, String.toList_ofList]
  exact Sql.lex_textOf s.legible

end Select

namespace Endpoint

/-- What the database reads when it is sent a statement. -/
def lexemes? (e : Endpoint) (select : Select) : Option (List Sql.Lexeme) :=
  match e.session, e.sql select with
  | .ok session, .ok text => Sql.lex session.dialect text.toList
  | _, _ => none

theorem lexemes?_eq {e : Endpoint} {session : Session} (h : e.session = .ok session)
    (select : Select) :
    e.lexemes? select = some (select.tokens.map (Token.lexeme session.dialect)) := by
  have hsql : e.sql select = .ok (select.sql session.dialect) := by
    rw [sql, h]
    rfl
  rw [lexemes?, h, hsql]
  exact select.lex_sql session.dialect

end Endpoint

end FilterSelect
