/-
Reading dates, times and moments in any accepted style.

A moment is a keyword, a day with a time, a timestamp, or a day alone, which is
its midnight.  A date is the day of a moment.  A time of day is a time alone, or
else the time of a moment.
-/
import FilterSelect.Calendar.Keyword
import FilterSelect.Calendar.Styles
import FilterSelect.Calendar.Timestamp

namespace FilterSelect

namespace Calendar

/-- Why a text names no moment. -/
inductive Fault where
  /-- No accepted style fits the text. -/
  | unrecognised (text : String)
  /-- The text is a keyword whose moment lies past the date range. -/
  | outOfRange (text : String)
deriving DecidableEq, Repr

/-- The wording of a fault. -/
def Fault.message : Fault → String
  | .unrecognised text => "'" ++ text ++ "' is not a recognised date or time"
  | .outOfRange text => "'" ++ text ++ "' is out of range"

/-- The moment that a text names without help of the clock. -/
def readAbsolute? (s : List Char) : Option DateTime :=
  (dateTimePatterns.findSome? fun pattern => pattern.dateTime? s)
    <|> readTimestamp s
    <|> (datePatterns.findSome? fun pattern => pattern.date? s).map Keyword.startOf

/-- The moment that a text names, without white space around it, at this reading of the clock. -/
def readMoment (reading : DateTime) (s : List Char) : Except Fault DateTime :=
  match Keyword.ofText? s with
  | some k =>
    match k.moment? reading with
    | some moment => .ok moment
    | none => .error (.outOfRange (String.ofList s))
  | none =>
    match readAbsolute? s with
    | some moment => .ok moment
    | none => .error (.unrecognised (String.ofList s))

/-- Reads a moment. -/
def readDateTime (reading : DateTime) (s : List Char) : Except Fault DateTime :=
  readMoment reading (Text.trim s)

/-- Reads a date. -/
def readDate (reading : DateTime) (s : List Char) : Except Fault Date :=
  (readDateTime reading s).map DateTime.date

/-- Reads a time of day. -/
def readTime (reading : DateTime) (s : List Char) : Except Fault Time :=
  let trimmed := Text.trim s
  match timePatterns.findSome? fun pattern => pattern.time? trimmed with
  | some time => .ok time
  | none => (readMoment reading trimmed).map DateTime.time

end Calendar

end FilterSelect
