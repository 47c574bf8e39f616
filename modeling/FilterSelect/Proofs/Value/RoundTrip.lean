/-
Every value that has a canonical text is converted back from it.

The text of an integer is its digits, that of a decimal has as many digits after the point
as its scale says, and dates and times are written from the year down to the nanosecond.
White space around a text is dropped first.  It cannot touch the text itself, which begins
and ends with a digit or a sign, and so what is left are the readers of numbers and of
dates, each on a text it wrote.

A table of converters is searched by column type.  The types of one family all find the
same converter in the built-in table, so a text is converted alike for all of them.
-/
import FilterSelect.Proofs.Calendar.Reading
import FilterSelect.Proofs.Number.Reading
import FilterSelect.Value.Converters

namespace FilterSelect

open Text (IsTight IsBlankRun)

/-- The value `v` is written as `s` for columns of this type. -/
inductive Value.Written (type : ColumnType) : Value → List Char → Prop
  /-- Decimal digits, after a minus sign for a negative integer. -/
  | integer (h : type.isA .integer = true) (i : Int64) :
      Written type (.integer i) (Integer64.text i)
  /-- Plain notation with the digits of the scale; zero has no sign. -/
  | decimal (h : type.isA .numeric = true) (hfloat : type.isA .float = false) (d : Decimal)
      (hzero : d.coefficient = 0 → d.negative = false) : Written type (.decimal d) d.text
  | date (h : type.isA .date = true) (d : Date) : Written type (.date d) d.text
  /-- The date and the time to the nanosecond, joined by a `T` or a space. -/
  | dateTime (h : type.isA .dateTime = true) (t : DateTime) (separator : Char)
      (hseparator : separator = 'T' ∨ separator = ' ') :
      Written type (.dateTime t) (t.text separator 9)
  /-- A date alone is its midnight. -/
  | midnight (h : type.isA .dateTime = true) (d : Date) :
      Written type (.dateTime ⟨d, Time.midnight⟩) d.text
  | time (h : type.isA .time = true) (t : Time) : Written type (.time t) (t.text 9)

namespace Value

/-! ### Reading through white space -/

/-- A reader sees a text without the white space around it. -/
theorem readTextWith_eq {α ε : Type} {read : List Char → Except ε α} {refusal : ε → Refusal}
    {before s after : List Char} {a : α} (hbefore : IsBlankRun before) (hafter : IsBlankRun after)
    (hs : IsTight s) (h : read s = .ok a) :
    readTextWith read refusal (.string (String.ofList (before ++ s ++ after))) = .ok a := by
  rw [readTextWith, readText, String.toList_ofList, Text.trim_eq hbefore hafter hs]
  simp only [h]

/-- A reader that trims the text itself finds nothing more to trim. -/
theorem trim_of_isTight {s : List Char} (h : IsTight s) : Text.trim s = s := by
  have hnil : IsBlankRun [] := nofun
  have htrim := Text.trim_eq hnil hnil h
  rwa [List.nil_append, List.append_nil] at htrim

private theorem Written.isTight {type : ColumnType} {v : Value} {s : List Char}
    (h : Written type v s) :
    IsTight s := by
  cases h with
  | integer h i => exact Integer64.isTight_text i
  | decimal h hfloat d hzero => exact d.isTight_text
  | date h d => exact d.isTight_text
  | dateTime h t separator hseparator => exact t.isTight_text _ _
  | midnight h d => exact d.isTight_text
  | time h t => exact t.isTight_text _

end Value

namespace Converters

/-! ### Which converter a type finds

The table is gone through from the front, so a general type must not stand before one that is
converted differently.
-/

theorem convert_eq {given : Option Converters} (hgiven : orBuiltIn given = builtIn)
    {type : ColumnType} {converter : Converter} (h : builtIn.find? type = some converter)
    (clock : DateTime) (raw : Json) : convert given clock type raw = converter clock raw := by
  rw [convert, hgiven, h]

variable {type : ColumnType}

theorem find?_integer (h : type.isA .integer = true) :
    builtIn.find? type = some fun _ raw => (Value.readInteger raw).map .integer := by
  cases type <;> first | rfl | cases h

private theorem find?_numeric (h : type.isA .numeric = true) (hfloat : type.isA .float = false) :
    builtIn.find? type = some fun _ raw => (Value.readDecimal raw).map .decimal := by
  cases type <;> first | rfl | exact absurd hfloat (by decide) | cases h

private theorem find?_date (h : type.isA .date = true) :
    builtIn.find? type = some fun clock raw => (Value.readDate clock raw).map .date := by
  cases type <;> first | rfl | cases h

private theorem find?_dateTime (h : type.isA .dateTime = true) :
    builtIn.find? type = some fun clock raw => (Value.readDateTime clock raw).map .dateTime := by
  cases type <;> first | rfl | cases h

private theorem find?_time (h : type.isA .time = true) :
    builtIn.find? type = some fun clock raw => (Value.readTime clock raw).map .time := by
  cases type <;> first | rfl | cases h

/-! ### The round trip -/

/--
**What is written is what is read.**

Under the built-in converters, the canonical text of a value is converted to exactly that
value for every column of a type the value belongs to, whatever white space is around the
text and whatever the clock says.  That covers every 64-bit integer, every decimal but a
negative zero, every date of the range, every time with its nanoseconds and leap seconds,
every date with a time, and the date alone that stands for its midnight.
-/
theorem convert_written {given : Option Converters} (hgiven : orBuiltIn given = builtIn)
    {v : Value} {s : List Char} (h : v.Written type s) {before after : List Char}
    (hbefore : IsBlankRun before) (hafter : IsBlankRun after) (clock : DateTime) :
    convert given clock type (.string (String.ofList (before ++ s ++ after))) = .ok v := by
  have htight := h.isTight
  have htrim := Value.trim_of_isTight htight
  cases h with
  | integer h i =>
      have hread : Value.readInteger (.string _) = .ok i :=
        Value.readTextWith_eq hbefore hafter htight (Integer64.read_text i)
      rw [convert_eq hgiven (find?_integer h), hread]
      rfl
  | decimal h hfloat d hzero =>
      have hread : Value.readDecimal (.string _) = .ok d :=
        Value.readTextWith_eq hbefore hafter htight (Decimal.read_text hzero)
      rw [convert_eq hgiven (find?_numeric h hfloat), hread]
      rfl
  | date h d =>
      have hmoment : Calendar.readDate clock d.text = .ok d := by
        rw [Calendar.readDate, Calendar.readDateTime, htrim, Calendar.readMoment_date]
        rfl
      have hread : Value.readDate clock (.string _) = .ok d :=
        Value.readTextWith_eq hbefore hafter htight hmoment
      rw [convert_eq hgiven (find?_date h), hread]
      rfl
  | dateTime h t separator hseparator =>
      have hmoment : Calendar.readDateTime clock (t.text separator 9) = .ok t := by
        rw [Calendar.readDateTime, htrim,
          Calendar.readMoment_dateTime t (by decide) hseparator, Time.cut_nine]
      have hread : Value.readDateTime clock (.string _) = .ok _ :=
        Value.readTextWith_eq hbefore hafter htight hmoment
      rw [convert_eq hgiven (find?_dateTime h), hread]
      rfl
  | midnight h d =>
      have hmoment : Calendar.readDateTime clock d.text = .ok ⟨d, Time.midnight⟩ := by
        rw [Calendar.readDateTime, htrim, Calendar.readMoment_date]
        rfl
      have hread : Value.readDateTime clock (.string _) = .ok _ :=
        Value.readTextWith_eq hbefore hafter htight hmoment
      rw [convert_eq hgiven (find?_dateTime h), hread]
      rfl
  | time h t =>
      have htime : Calendar.readTime clock (t.text 9) = .ok t := by
        rw [Calendar.readTime, htrim]
        simp only [Calendar.timePatterns, List.findSome?_cons,
          Calendar.time?_text t (by decide : 0 < 9 ∧ 9 ≤ 9), Time.cut_nine]
      have hread : Value.readTime clock (.string _) = .ok t :=
        Value.readTextWith_eq hbefore hafter htight htime
      rw [convert_eq hgiven (find?_time h), hread]
      rfl

/-- A leap second after the year 9999, with white space around it, at the start of 1970. -/
theorem convert_leapSecond :
    convert none ⟨⟨1970, 1, 1, by decide⟩, Time.midnight⟩ .dateTime
        (.string "\t +12016-12-31 23:59:60.000000001\n") =
      .ok (.dateTime ⟨⟨12016, 12, 31, by decide⟩, ⟨23, 59, 60, 1, by decide⟩⟩) := by
  have hwritten : Value.Written .dateTime (.dateTime _) _ :=
    .dateTime rfl ⟨⟨12016, 12, 31, by decide⟩, ⟨23, 59, 60, 1, by decide⟩⟩ ' ' (.inr rfl)
  have hbefore : IsBlankRun ['\t', ' '] := List.all_eq_true.mp rfl
  have hafter : IsBlankRun ['\n'] := List.all_eq_true.mp rfl
  exact convert_written rfl hwritten hbefore hafter _

end Converters

end FilterSelect
