/-
Moments named relative to the clock.

`now` is the clock's reading, and `today`, `yesterday` and `tomorrow` are the
starts of three days around it.  The reading is an argument, so that everything
that depends on the clock shows it.
-/
import FilterSelect.Calendar.Date
import FilterSelect.Text.Blank

namespace FilterSelect

namespace Calendar

/-- A word for a moment relative to the clock. -/
inductive Keyword where
  | now
  | today
  | yesterday
  | tomorrow
deriving DecidableEq, Repr

namespace Keyword

/-- The keyword in lower case. -/
def name : Keyword → String
  | .now => "now"
  | .today => "today"
  | .yesterday => "yesterday"
  | .tomorrow => "tomorrow"

/-- The keyword that a text is, in any case. -/
def ofText? (s : List Char) : Option Keyword :=
  [now, today, yesterday, tomorrow].find? fun k => k.name.toList == Text.lower s

/-- The start of a day. -/
def startOf (date : Date) : DateTime :=
  ⟨date, Time.midnight⟩

/-- The moment that a keyword names at this reading of the clock; none past the date range. -/
def moment? (k : Keyword) (reading : DateTime) : Option DateTime :=
  match k with
  | .now => some reading
  | .today => some (startOf reading.date)
  | .yesterday => reading.date.previous?.map startOf
  | .tomorrow => reading.date.next?.map startOf

end Keyword

end Calendar

end FilterSelect
