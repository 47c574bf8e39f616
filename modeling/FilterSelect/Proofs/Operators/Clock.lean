/-
What operators owe to the clock.

The converters for dates, for dates with a time and for times are given a reading of the
clock for every scalar, and the others do not look at it.  What a scalar is converted to
depends on the reading only if the scalar is a string that is one of the four words for
moments (`Converters.convert_congr`), and then on nothing else: the constant is the part
that the column's kind holds of the moment that the word names (`convert_eq_ok_iff`).

A time alone and a word exclude each other, so the converter for times, which looks for a
time alone first, is no exception.
-/
import FilterSelect.Proofs.Calendar.Keywords
import FilterSelect.Proofs.Operators.Kinds

namespace FilterSelect

open Calendar (Keyword)

/-- The scalar is a string that is one of the words for moments. -/
def Json.IsKeyword (raw : Json) : Prop :=
  ∃ s, raw = .string s ∧ ∃ k : Keyword, k.Spells s

/-- The constant that columns of a kind hold of a moment, if they hold a part of moments. -/
def Kind.ofMoment? : Kind → Option (DateTime → Value)
  | .date => some fun m => .date m.date
  | .dateTime => some fun m => .dateTime m
  | .time => some fun m => .time m.time
  | _ => none

/-! ### Converters

A table that is the built-in one has three converters that look at the clock, and each of them
reads the text of a string by a reader whose use of the clock is known.
-/

private theorem Value.readTextWith_congr {α ε : Type} {read read' : List Char → Except ε α}
    {refusal : ε → Refusal} {raw : Json}
    (h : ∀ s, raw = .string s → read (Text.trim s.toList) = read' (Text.trim s.toList)) :
    readTextWith read refusal raw = readTextWith read' refusal raw := by
  cases raw with
  | string s => simp only [readTextWith, readText, h s rfl]
  | _ => rfl

namespace Converters

variable {given : Option Converters} {clock clock' : DateTime} {type : ColumnType} {raw : Json}
  {k : Keyword} {s : String} {part : DateTime → Value}

/-- A scalar that is no word for a moment is converted to the same at any two readings. -/
theorem convert_congr (hgiven : orBuiltIn given = builtIn) (h : ¬ raw.IsKeyword) :
    convert given clock type raw = convert given clock' type raw := by
  have hword : ∀ s, raw = .string s →
      Keyword.ofText? (Text.trim (Text.trim s.toList)) = none := by
    intro s hs
    rw [Text.trim_trim, Keyword.ofText?_eq_none_iff]
    exact fun k hk => h ⟨s, hs, k, hk⟩
  rw [convert, convert, hgiven, find?_builtIn]
  cases type.kind with
  | date =>
      have hread : Value.readDate clock raw = Value.readDate clock' raw :=
        Value.readTextWith_congr fun s hs => Calendar.readDate_congr (hword s hs)
      simp only [Kind.converter?, hread]
  | dateTime =>
      have hread : Value.readDateTime clock raw = Value.readDateTime clock' raw :=
        Value.readTextWith_congr fun s hs => Calendar.readDateTime_congr (hword s hs)
      simp only [Kind.converter?, hread]
  | time =>
      have hread : Value.readTime clock raw = Value.readTime clock' raw :=
        Value.readTextWith_congr fun s hs => Calendar.readTime_congr (hword s hs)
      simp only [Kind.converter?, hread]
  | _ => rfl

/-- A word is converted to a part of its moment, or refused as the reader of moments refuses it. -/
theorem convert_keyword (hgiven : orBuiltIn given = builtIn)
    (hpart : type.kind.ofMoment? = some part) (h : k.Spells s) :
    convert given clock type (.string s) =
      match Calendar.readMoment clock (Text.trim s.toList) with
      | .ok m => .ok (part m)
      | .error fault => .error (.moment fault) := by
  have hword : Keyword.ofText? (Text.trim (Text.trim s.toList)) = some k := by
    rw [Text.trim_trim, Keyword.ofText?_eq_some_iff]
    exact h
  rw [convert, hgiven, find?_builtIn]
  cases hkind : type.kind <;> rw [hkind] at hpart <;> cases hpart
  case date =>
    simp only [Kind.converter?, Value.readDate, Value.readTextWith, Value.readText,
      Calendar.readDate, Calendar.readDateTime, Text.trim_trim]
    cases Calendar.readMoment clock (Text.trim s.toList) <;> rfl
  case dateTime =>
    simp only [Kind.converter?, Value.readDateTime, Value.readTextWith, Value.readText,
      Calendar.readDateTime, Text.trim_trim]
    cases Calendar.readMoment clock (Text.trim s.toList) <;> rfl
  case time =>
    simp only [Kind.converter?, Value.readTime, Value.readTextWith, Value.readText,
      Calendar.readTime_of_keyword hword, Calendar.readDateTime, Text.trim_trim]
    cases Calendar.readMoment clock (Text.trim s.toList) <;> rfl

theorem convert_eq_ok_iff (hgiven : orBuiltIn given = builtIn)
    (hpart : type.kind.ofMoment? = some part) (h : k.Spells s) {v : Value} :
    convert given clock type (.string s) = .ok v ↔ ∃ m, k.Names clock m ∧ v = part m := by
  have hword := Keyword.ofText?_eq_some_iff.mpr h
  simp only [← Calendar.readMoment_eq_ok_iff hword, convert_keyword hgiven hpart h]
  cases Calendar.readMoment clock (Text.trim s.toList) <;> simp [eq_comm]

theorem convert_eq_error_iff (hgiven : orBuiltIn given = builtIn)
    (hpart : type.kind.ofMoment? = some part) (h : k.Spells s) {refusal : Refusal} :
    convert given clock type (.string s) = .error refusal ↔
      (∀ m, ¬ k.Names clock m) ∧
        refusal = .moment (.outOfRange (String.ofList (Text.trim s.toList))) := by
  have hword := Keyword.ofText?_eq_some_iff.mpr h
  rw [convert_keyword hgiven hpart h]
  constructor
  · intro hrefusal
    cases hread : Calendar.readMoment clock (Text.trim s.toList) with
    | ok m =>
        rw [hread] at hrefusal
        cases hrefusal
    | error fault =>
        rw [hread] at hrefusal
        cases hrefusal
        obtain ⟨hnone, rfl⟩ := (Calendar.readMoment_eq_error_iff hword).mp hread
        exact ⟨hnone, rfl⟩
  · rintro ⟨hnone, rfl⟩
    rw [(Calendar.readMoment_eq_error_iff hword).mpr ⟨hnone, rfl⟩]

end Converters

/-! ### Operators -/

namespace Operator

variable {given : Option Converters} {clock clock' : DateTime} {field : Field} {raw : Json}

/-- An operator makes the same of a scalar that is no word for a moment, at any two readings. -/
theorem apply_congr (op : Operator) (hgiven : Converters.orBuiltIn given = Converters.builtIn)
    (h : ¬ raw.IsKeyword) :
    op.apply given clock field raw = op.apply given clock' field raw := by
  have hvalue : valueFor given clock field.type raw = valueFor given clock' field.type raw := by
    unfold valueFor
    rw [Converters.convert_congr hgiven h]
  rw [apply, apply, hvalue]

end Operator

end FilterSelect
