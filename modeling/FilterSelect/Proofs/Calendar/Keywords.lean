/-
Words for moments, and what they owe to the clock.

Whoever reads a text as a date or a time is given a reading of the clock, whatever the text
is.  It is used for four words only.  A text that is none of them, without the white space
around it and in whatever case, is read the same at any two readings
(`readDateTime_congr`, `readTime_congr`).

A word names a day by its distance from the day of the reading, and a time of day.  The
distance is one of day numbers, so it is the same across the ends of months, leap years and
years (`moment?_eq_some_iff`).  Only the date range can come in between: a word is refused if
and only if no day of the range has the number.
-/
import FilterSelect.Proofs.Calendar.DayNumber
import FilterSelect.Proofs.Calendar.TimeAlone

namespace FilterSelect

namespace Calendar

namespace Keyword

variable {k : Keyword} {reading m : DateTime} {s : List Char}

/-! ### Words -/

/-- The string is this word, but for its case and for white space around it. -/
def Spells (k : Keyword) (s : String) : Prop :=
  Text.lower (Text.trim s.toList) = k.name.toList

instance (k : Keyword) (s : String) : Decidable (k.Spells s) := by
  unfold Spells; infer_instance

theorem ofText?_eq_some_iff : ofText? s = some k ↔ Text.lower s = k.name.toList := by
  constructor
  · intro h
    have hname := List.find?_some h
    exact (beq_iff_eq.mp hname).symm
  · intro h
    rw [ofText?, h]
    cases k <;> rfl

theorem ofText?_eq_none_iff : ofText? s = none ↔ ∀ k : Keyword, Text.lower s ≠ k.name.toList := by
  rw [Option.eq_none_iff_forall_ne_some]
  simp only [ne_eq, ofText?_eq_some_iff]

/-! ### What words name -/

/-- The day of a word, where the date range has it. -/
def day? : Keyword → Date → Option Date
  | .now, date | .today, date => some date
  | .yesterday, date => date.previous?
  | .tomorrow, date => date.next?

/-- How many days after the day of the reading a word's day is. -/
def dayShift : Keyword → Int
  | .now | .today => 0
  | .yesterday => -1
  | .tomorrow => 1

/-- The time of day of a word: only `now` has one, the other words name starts of days. -/
def timeAt (k : Keyword) (reading : DateTime) : Time :=
  if k = .now then reading.time else Time.midnight

theorem day?_eq_some_iff {d e : Date} :
    k.day? d = some e ↔ e.dayNumber = d.dayNumber + k.dayShift := by
  have hsame : some d = some e ↔ e.dayNumber = d.dayNumber + 0 := by
    rw [Int.add_zero, Option.some.injEq]
    exact ⟨fun h => by rw [h], fun h => Date.dayNumber_injective h.symm⟩
  cases k with
  | now => exact hsame
  | today => exact hsame
  | yesterday => exact Date.previous?_eq_some_iff
  | tomorrow => exact Date.next?_eq_some_iff

theorem moment?_eq (k : Keyword) (reading : DateTime) :
    k.moment? reading = (k.day? reading.date).map fun date => ⟨date, k.timeAt reading⟩ := by
  cases k <;> rfl

/-- The moment that a word names at a reading. -/
structure Names (k : Keyword) (reading m : DateTime) : Prop where
  day : m.date.dayNumber = reading.date.dayNumber + k.dayShift
  time : m.time = k.timeAt reading

theorem moment?_eq_some_iff : k.moment? reading = some m ↔ k.Names reading m := by
  rw [moment?_eq, Option.map_eq_some_iff]
  constructor
  · rintro ⟨date, hdate, rfl⟩
    exact ⟨day?_eq_some_iff.mp hdate, rfl⟩
  · rintro ⟨hday, htime⟩
    exact ⟨m.date, day?_eq_some_iff.mpr hday, by rw [← htime]⟩

theorem moment?_eq_none_iff : k.moment? reading = none ↔ ∀ m, ¬ k.Names reading m := by
  rw [Option.eq_none_iff_forall_ne_some]
  simp only [ne_eq, moment?_eq_some_iff]

end Keyword

/-! ### Reading words

A word is looked for before anything else, so what it names is what is read, or it is refused.
-/

variable {k : Keyword} {reading reading' m : DateTime} {s : List Char} {fault : Fault}

theorem readMoment_eq_ok_iff (h : Keyword.ofText? s = some k) :
    readMoment reading s = .ok m ↔ k.Names reading m := by
  rw [← Keyword.moment?_eq_some_iff]
  simp only [readMoment, h]
  cases k.moment? reading <;> simp

theorem readMoment_eq_error_iff (h : Keyword.ofText? s = some k) :
    readMoment reading s = .error fault ↔
      (∀ m, ¬ k.Names reading m) ∧ fault = .outOfRange (String.ofList s) := by
  rw [← Keyword.moment?_eq_none_iff]
  simp only [readMoment, h]
  cases k.moment? reading <;> simp [eq_comm]

/-- A word is no time alone, so its time is that of its moment. -/
theorem readTime_of_keyword (h : Keyword.ofText? (Text.trim s) = some k) (reading : DateTime) :
    readTime reading s = (readDateTime reading s).map DateTime.time := by
  refine readTime_of_no_time ?_ reading
  intro p hp
  rw [Option.eq_none_iff_forall_ne_some]
  intro t htime
  rw [ofText?_of_time? hp htime] at h
  cases h

/-! ### Reading other texts

The reading of the clock is handed on to nothing but the words.
-/

theorem readMoment_congr (h : Keyword.ofText? s = none) :
    readMoment reading s = readMoment reading' s := by
  simp only [readMoment, h]

theorem readDateTime_congr (h : Keyword.ofText? (Text.trim s) = none) :
    readDateTime reading s = readDateTime reading' s :=
  readMoment_congr h

theorem readDate_congr (h : Keyword.ofText? (Text.trim s) = none) :
    readDate reading s = readDate reading' s := by
  rw [readDate, readDate, readDateTime_congr h]

/-- The clock is not asked about a time alone, nor about what is left to the reader of moments. -/
theorem readTime_congr (h : Keyword.ofText? (Text.trim s) = none) :
    readTime reading s = readTime reading' s := by
  have hmoment : readMoment reading (Text.trim s) = readMoment reading' (Text.trim s) :=
    readMoment_congr h
  simp only [readTime, hmoment]

end Calendar

end FilterSelect
