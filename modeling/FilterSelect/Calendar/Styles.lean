/-
The accepted ways to write dates and times.

Twelve patterns carry a day and a time, six a day alone and four a time alone.
They are tried in the order given here; RFC 3339 timestamps, which also carry an
offset, are read in their own module.
-/
import FilterSelect.Calendar.Pattern

namespace FilterSelect

namespace Calendar

/-! ### Building blocks -/

/-- `2016-01-31` -/
def hyphenDate : Pattern := [.year, .char '-', .month, .char '-', .day]

/-- `2016/01/31` -/
def slashDate : Pattern := [.year, .char '/', .month, .char '/', .day]

/-- `31.01.2016` -/
def dottedDate : Pattern := [.day, .char '.', .month, .char '.', .year]

/-- `January 31, 2016` -/
def namedDate : Pattern := [.monthName, .blank, .day, .char ',', .blank, .year]

/-- `10:20:30.5` -/
def fullClock : Pattern := [.hour, .char ':', .minute, .char ':', .second, .fraction]

/-- `10:20` -/
def shortClock : Pattern := [.hour, .char ':', .minute]

/-! ### The lists -/

/-- Patterns with a day and a time. -/
def dateTimePatterns : List Pattern :=
  [hyphenDate ++ .char 'T' :: fullClock,
    hyphenDate ++ .blank :: fullClock,
    hyphenDate ++ .char 'T' :: shortClock,
    hyphenDate ++ .blank :: shortClock,
    slashDate ++ .blank :: fullClock,
    slashDate ++ .blank :: shortClock,
    dottedDate ++ .blank :: fullClock,
    dottedDate ++ .blank :: shortClock,
    fullClock ++ .blank :: hyphenDate,
    shortClock ++ .blank :: hyphenDate,
    namedDate ++ .blank :: fullClock,
    namedDate ++ .blank :: shortClock]

/-- Patterns with a day alone. -/
def datePatterns : List Pattern :=
  [hyphenDate,
    slashDate,
    dottedDate,
    namedDate,
    [.monthName, .blank, .day, .blank, .year],
    [.day, .blank, .monthName, .blank, .year]]

/-- Patterns with a time alone. -/
def timePatterns : List Pattern :=
  [fullClock,
    shortClock,
    [.halfDayHour, .char ':', .minute, .char ':', .second, .blank, .meridiem],
    [.halfDayHour, .char ':', .minute, .blank, .meridiem]]

end Calendar

end FilterSelect
