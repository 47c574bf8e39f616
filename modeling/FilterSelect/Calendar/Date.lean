/-
Calendar dates and times of day.

Dates follow the Gregorian rules in both directions and carry a proof that they
name a day that exists, so a value of the type needs no check later.  The years
are those of the date range that constants may use.

A time of day counts seconds from 0 to 60: second 60 is a leap second, which may
be inserted at the end of any minute, and keeps its own fraction like any other.
-/
import FilterSelect.Text.Digits

namespace FilterSelect

/-! ### Dates -/

/-- Every fourth year, without the full centuries that 400 does not divide. -/
def isLeapYear (year : Int) : Bool :=
  year % 4 == 0 && (year % 100 != 0 || year % 400 == 0)

/-- The number of days of a month; months are counted from 1. -/
def daysInMonth (year : Int) (month : Nat) : Nat :=
  match month with
  | 2 => if isLeapYear year then 29 else 28
  | 4 | 6 | 9 | 11 => 30
  | _ => 31

/-- The first year of the date range. -/
def firstYear : Int := -262143

/-- The last year of the date range. -/
def lastYear : Int := 262142

/-- Whether these numbers name a day of the date range. -/
def IsDay (year : Int) (month day : Nat) : Prop :=
  (firstYear ≤ year ∧ year ≤ lastYear) ∧ (1 ≤ month ∧ month ≤ 12) ∧
    1 ≤ day ∧ day ≤ daysInMonth year month

instance (year : Int) (month day : Nat) : Decidable (IsDay year month day) := by
  unfold IsDay; infer_instance

/-- A day of the date range. -/
structure Date where
  year : Int
  month : Nat
  day : Nat
  isDay : IsDay year month day
deriving DecidableEq

namespace Date

/-- The day that these numbers name, if there is one. -/
def ofParts? (year : Int) (month day : Nat) : Option Date :=
  if h : IsDay year month day then some ⟨year, month, day, h⟩ else none

/-- The following day; none after the last one. -/
def next? (d : Date) : Option Date :=
  if d.day < daysInMonth d.year d.month then ofParts? d.year d.month (d.day + 1)
  else if d.month < 12 then ofParts? d.year (d.month + 1) 1
  else ofParts? (d.year + 1) 1 1

/-- The day before; none before the first one. -/
def previous? (d : Date) : Option Date :=
  if 1 < d.day then ofParts? d.year d.month (d.day - 1)
  else if 1 < d.month then ofParts? d.year (d.month - 1) (daysInMonth d.year (d.month - 1))
  else ofParts? (d.year - 1) 12 31

/-- A year of four digits is written plainly, any other with its sign and at least four digits. -/
def yearText (year : Int) : List Char :=
  if 0 ≤ year ∧ year ≤ 9999 then Text.padded 4 year.natAbs
  else (if year < 0 then '-' else '+') :: Text.padded 4 year.natAbs

/-- Year, month and day, joined by hyphens. -/
def text (d : Date) : List Char :=
  yearText d.year ++ '-' :: Text.padded 2 d.month ++ '-' :: Text.padded 2 d.day

end Date

/-! ### Times of day -/

/-- Whether these numbers name a time of day. -/
def IsTime (hour minute second nano : Nat) : Prop :=
  hour < 24 ∧ minute < 60 ∧ second ≤ 60 ∧ nano < Nat.pow 10 9

instance (hour minute second nano : Nat) : Decidable (IsTime hour minute second nano) := by
  unfold IsTime; infer_instance

/-- A time of day, to the nanosecond. -/
structure Time where
  hour : Nat
  minute : Nat
  second : Nat
  nano : Nat
  isTime : IsTime hour minute second nano
deriving DecidableEq

namespace Time

/-- The start of the day. -/
def midnight : Time :=
  ⟨0, 0, 0, 0, by decide⟩

/-- The time of day that these numbers name, if there is one. -/
def ofParts? (hour minute second nano : Nat) : Option Time :=
  if h : IsTime hour minute second nano then some ⟨hour, minute, second, nano, h⟩ else none

/-- Hours, minutes and seconds, joined by colons. -/
def clockText (t : Time) : List Char :=
  Text.padded 2 t.hour ++ ':' :: Text.padded 2 t.minute ++ ':' :: Text.padded 2 t.second

/-- The time with a fraction of `places` digits, later digits dropped; `places` is at most nine. -/
def text (t : Time) (places : Nat) : List Char :=
  t.clockText ++ '.' :: Text.padded places (t.nano / Nat.pow 10 (9 - places))

/-- The time with the shortest exact fraction of 3, 6 or 9 digits, or with none if that is zero. -/
def shortText (t : Time) : List Char :=
  if t.nano = 0 then t.clockText
  else if t.nano % Nat.pow 10 6 = 0 then t.text 3
  else if t.nano % Nat.pow 10 3 = 0 then t.text 6
  else t.text 9

end Time

/-! ### Dates with a time -/

/-- A time of day on a day, in universal time. -/
structure DateTime where
  date : Date
  time : Time
deriving DecidableEq

namespace DateTime

/-- The date, a separator and the time with a fraction of `places` digits. -/
def text (t : DateTime) (separator : Char) (places : Nat) : List Char :=
  t.date.text ++ separator :: t.time.text places

/--
The moment that a local clock shows, when that clock is `offset` minutes ahead of
universal time.  Offsets stay below one day, so the date moves by one day at most.
-/
def toUniversal? (t : DateTime) (offset : Int) : Option DateTime :=
  let total : Int := (60 * t.time.hour + t.time.minute : Nat) - offset
  let carried : Option (Date × Int) :=
    if total < 0 then t.date.previous?.map fun d => (d, total + 1440)
    else if 1440 ≤ total then t.date.next?.map fun d => (d, total - 1440)
    else some (t.date, total)
  match carried with
  | none => none
  | some (date, minutes) =>
    let m := minutes.toNat
    (Time.ofParts? (m / 60) (m % 60) t.time.second t.time.nano).map fun time => ⟨date, time⟩

end DateTime

end FilterSelect
