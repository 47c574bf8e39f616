/-
Different constants have different literals.

What is written for a value can be read: the text between the quotes of a string by the
rules of the dialect, a number by its reader, a date or a time by the pattern of its text.
So two values of one kind share a literal only where the literal says less than the value
does.  That happens in one place: fractions of seconds have six places in SQL, and a time
is known to the nanosecond.  The literal of a time is therefore that of the time cut to
its microsecond, and apart from that nothing of a constant is lost on its way into the
text, whichever characters, signs or zeros it has.
-/
import FilterSelect.Proofs.Calendar.Reading
import FilterSelect.Proofs.Number.Reading
import FilterSelect.Proofs.Sql.Tokens
import FilterSelect.Operator
import FilterSelect.Select.Sql

namespace FilterSelect

open Sql (Token Dialect)

/-! ### Quoted strings

What stands between quotes can be undone: doubled quotes are halved again, and an escaped
letter names one character.
-/

namespace Sql

/-- The character that a letter after a backslash stands for. -/
def escapedBy (letter : Char) : Char :=
  if letter = '0' then '\x00'
  else if letter = 'b' then '\x08'
  else if letter = 't' then '\t'
  else if letter = 'z' then '\x1a'
  else if letter = 'n' then '\n'
  else if letter = 'r' then '\r'
  else letter

private theorem escapedBy_of_escapeLetter? {c letter : Char} (h : escapeLetter? c = some letter) :
    escapedBy letter = c := by
  unfold escapeLetter? at h
  split at h
  · rename_i hself
    rcases hself with rfl | rfl | rfl <;> cases h <;> rfl
  split at h
  · rename_i hzero
    cases h
    exact (Char.toNat_inj.mp hzero).symm
  -- every other letter stands for one character
  repeat' split at h
  all_goals cases h
  all_goals
    subst_vars
    rfl

private theorem escaping_cons (c : Char) (s : List Char) :
    escaping (c :: s) =
      match escapeLetter? c with
      | some letter => '\\' :: letter :: escaping s
      | none => c :: escaping s := by
  cases hc : escapeLetter? c <;> simp [escaping, hc]

private theorem escaping_injective {s s' : List Char} (h : escaping s = escaping s') : s = s' := by
  induction s generalizing s' with
  | nil =>
      cases s' with
      | nil => rfl
      | cons c' s' =>
          rw [escaping_cons] at h
          cases hc' : escapeLetter? c' <;> rw [hc'] at h <;> cases h
  | cons c s ih =>
      cases s' with
      | nil =>
          rw [escaping_cons] at h
          cases hc : escapeLetter? c <;> rw [hc] at h <;> cases h
      | cons c' s' =>
          rw [escaping_cons, escaping_cons] at h
          cases hc : escapeLetter? c with
          | some letter =>
              cases hc' : escapeLetter? c' with
              | some letter' =>
                  simp only [hc, hc', List.cons.injEq, true_and] at h
                  rw [← escapedBy_of_escapeLetter? hc, h.1, escapedBy_of_escapeLetter? hc', ih h.2]
              | none =>
                  simp only [hc, hc', List.cons.injEq] at h
                  exact absurd h.1.symm (plain_of_escapeLetter? hc').1
          | none =>
              cases hc' : escapeLetter? c' with
              | some letter' =>
                  simp only [hc, hc', List.cons.injEq] at h
                  exact absurd h.1 (plain_of_escapeLetter? hc).1
              | none =>
                  simp only [hc, hc', List.cons.injEq] at h
                  rw [h.1, ih h.2]

theorem Dialect.stringLexeme_injective {dialect : Dialect} {s s' : String}
    (h : dialect.stringLexeme s = dialect.stringLexeme s') : s = s' := by
  have hescaping (heq : escaping s.toList = escaping s'.toList) : s = s' :=
    String.toList_inj.mp (escaping_injective heq)
  cases dialect with
  | sqlite => exact Lexeme.string.inj h
  | mysql => exact hescaping (Lexeme.escapeString.inj h)
  | postgres =>
      unfold stringLexeme at h
      dsimp only at h
      split at h <;> split at h
      · exact hescaping (Lexeme.escapeString.inj h)
      · cases h
      · cases h
      · exact Lexeme.string.inj h

theorem Dialect.quoteString_injective {dialect : Dialect} {s s' : String}
    (h : dialect.quoteString s = dialect.quoteString s') : s = s' := by
  have hlex (t : String) : lex dialect (dialect.quoteString t) = some [dialect.stringLexeme t] := by
    have hends : (Token.string t).EndsBefore dialect [] := by
      intro c hc
      cases hc
    have hreadable : (Token.string t).Readable := trivial
    have hread := lex_text hreadable hends
    rw [List.append_nil, lex_nil] at hread
    exact hread
  have hread := hlex s
  rw [h, hlex s', Option.some.injEq, List.cons.injEq] at hread
  exact (Dialect.stringLexeme_injective hread.1).symm

end Sql

/-! ### Literals

Values of one kind are written in one way, and the text of each way can be read back.
-/

namespace Value

/-- Two values of one kind, among the kinds that have content other than a flag or a double. -/
inductive SameKind : Value → Value → Prop
  | integer (i j : Int64) : SameKind (.integer i) (.integer j)
  | decimal (d e : Decimal) : SameKind (.decimal d) (.decimal e)
  | string (s s' : String) : SameKind (.string s) (.string s')
  | date (d e : Date) : SameKind (.date d) (.date e)
  | dateTime (t u : DateTime) : SameKind (.dateTime t) (.dateTime u)
  | time (t u : Time) : SameKind (.time t) (.time u)

/-- The value with the six places that a fraction of a second has in SQL. -/
def toMicroseconds : Value → Value
  | .time t => .time (t.cut 6)
  | .dateTime t => .dateTime ⟨t.date, t.time.cut 6⟩
  | v => v

/-- Values of one kind have one literal if and only if they agree to the microsecond. -/
theorem text_token_eq_iff {v w : Value} (h : v.SameKind w) (dialect : Dialect) :
    v.token.text dialect = w.token.text dialect ↔ v.toMicroseconds = w.toMicroseconds := by
  have hplaces : 0 < 6 ∧ 6 ≤ 9 := by decide
  have hquote (s s' : List Char) :
      (Token.string (String.ofList s)).text dialect =
          (Token.string (String.ofList s')).text dialect ↔
        s = s' := by
    constructor
    · exact fun h => String.ofList_injective (Dialect.quoteString_injective h)
    · exact fun h => congrArg (fun s => dialect.quoteString (String.ofList s)) h
  cases h with
  | integer i j =>
      show _ ↔ Value.integer i = .integer j
      rw [Value.integer.injEq]
      exact ⟨Integer64.text_injective, congrArg Integer64.text⟩
  | decimal d e =>
      show _ ↔ Value.decimal d = .decimal e
      rw [Value.decimal.injEq]
      exact ⟨Decimal.text_injective, congrArg Decimal.text⟩
  | string s s' =>
      show _ ↔ Value.string s = .string s'
      rw [Value.string.injEq]
      exact ⟨Dialect.quoteString_injective, congrArg dialect.quoteString⟩
  | date d e =>
      show _ ↔ Value.date d = .date e
      rw [Value.date.injEq, token, token, hquote]
      exact ⟨Date.text_injective, congrArg Date.text⟩
  | dateTime t u =>
      rw [toMicroseconds, toMicroseconds, Value.dateTime.injEq, DateTime.mk.injEq, token, token,
        hquote, DateTime.text_eq_iff hplaces (.inr rfl)]
  | time t u =>
      rw [toMicroseconds, toMicroseconds, Value.time.injEq, token, token, hquote,
        Time.text_eq_iff hplaces]

private theorem textOf_equal (dialect : Dialect) (column : ColumnRef) (v : Value) :
    Sql.textOf dialect (Condition.compare .equal column v).tokens =
      Sql.textOf dialect (column.tokens ++ [.mark .equal]) ++ ' ' :: v.token.text dialect := by
  have hspaced : (Token.mark .equal).spaced v.token = true := by
    cases v with
    | bool b => cases b <;> rfl
    | _ => rfl
  show Sql.textOf dialect [.identifier column.qualifier, .mark .dot, .identifier column.column,
      .mark .equal, v.token] =
    Sql.textOf dialect [.identifier column.qualifier, .mark .dot, .identifier column.column,
      .mark .equal] ++ ' ' :: v.token.text dialect
  simp only [Sql.textOf, hspaced, if_true, List.append_assoc, List.singleton_append]

end Value

namespace Operator

private theorem apply_eq {given : Option Converters} {clock : DateTime} {field : Field} {raw : Json}
    {v : Value} (h : valueFor given clock field.type raw = .ok (some v)) :
    (builtIn .eq).apply given clock field raw = .ok (.compare .equal field.toColumnRef v) := by
  have haccepts : (builtIn .eq).accepts field.type = true := rfl
  rw [apply, if_pos haccepts, h]
  rfl

end Operator

/--
**Constants reach the text up to the microsecond.**

In every dialect, two values of one kind have the same literal exactly if they agree once
fractions of seconds are cut to six digits.  So different strings, integers, decimals and
dates have different literals, and so have times that are at least a microsecond apart.
Wherever two scalars are converted to such values for one field, equality makes a
condition of each, and the texts of the two conditions are the same exactly if the
literals are.
-/
theorem Value.literal_determines {v w : Value} (h : v.SameKind w) (dialect : Dialect) :
    (v.token.text dialect = w.token.text dialect ↔ v.toMicroseconds = w.toMicroseconds) ∧
      ∀ given clock (field : Field) raw raw',
        Operator.valueFor given clock field.type raw = .ok (some v) →
        Operator.valueFor given clock field.type raw' = .ok (some w) →
        ∃ c c', (Operator.builtIn .eq).apply given clock field raw = .ok c ∧
          (Operator.builtIn .eq).apply given clock field raw' = .ok c' ∧
          (Sql.textOf dialect c.tokens = Sql.textOf dialect c'.tokens ↔
            v.toMicroseconds = w.toMicroseconds) := by
  refine ⟨text_token_eq_iff h dialect, ?_⟩
  intro given clock field raw raw' hraw hraw'
  refine ⟨_, _, Operator.apply_eq hraw, Operator.apply_eq hraw', ?_⟩
  rw [textOf_equal, textOf_equal, List.append_cancel_left_eq, List.cons.injEq,
    text_token_eq_iff h dialect]
  exact and_iff_right rfl

/-! ### Times of a race -/

namespace Race

/-- The clock at the start of the day of the race. -/
def clock : DateTime :=
  ⟨⟨2016, 1, 31, by decide⟩, Time.midnight⟩

/-- When a runner arrived. -/
def arrival : Field :=
  ⟨⟨"runners", "arrival"⟩, .time⟩

/-- Two runners who arrive a microsecond apart are told apart. -/
theorem predicates_differ : ∃ c c',
    (Operator.builtIn .eq).apply none clock arrival (.string "10:20:30.123456") = .ok c ∧
    (Operator.builtIn .eq).apply none clock arrival (.string "10:20:30.123457") = .ok c' ∧
    Sql.textOf .mysql c.tokens ≠ Sql.textOf .mysql c'.tokens := by
  obtain ⟨c, c', hc, hc', htext⟩ := (Value.literal_determines
    (.time ⟨10, 20, 30, 123456000, by decide⟩ ⟨10, 20, 30, 123457000, by decide⟩) .mysql).2
    none clock arrival (.string "10:20:30.123456") (.string "10:20:30.123457") rfl rfl
  exact ⟨c, c', hc, hc', fun h => absurd (htext.mp h) (by decide)⟩

/-- Two runners who arrive a nanosecond apart are not, though the converters tell them apart. -/
theorem literal_of_nanoseconds : ∃ t u : Time, t ≠ u ∧
    Operator.valueFor none clock .time (.string "10:20:30.123456788") = .ok (some (.time t)) ∧
    Operator.valueFor none clock .time (.string "10:20:30.123456789") = .ok (some (.time u)) ∧
    ∀ dialect, (Value.time t).token.text dialect = (Value.time u).token.text dialect := by
  refine ⟨⟨10, 20, 30, 123456788, by decide⟩, ⟨10, 20, 30, 123456789, by decide⟩, by decide,
    ?_, ?_, ?_⟩
  · rfl
  · rfl
  · intro dialect
    cases dialect <;> decide

end Race

end FilterSelect
