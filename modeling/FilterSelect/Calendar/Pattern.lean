/-
Patterns for dates and times.

A pattern is a list of items, each of which reads one part of a text from the
left.  Reading is lenient in three ways: white space before a number is skipped,
a blank in a pattern stands for any run of white space, even an empty one, and
numbers need not be padded.  It is strict in two: the whole text must be used up,
and the parts must name a day and a time that exist.
-/
import FilterSelect.Text.Blank
import FilterSelect.Calendar.Date

namespace FilterSelect

namespace Calendar

/-- One part of a pattern. -/
inductive Item where
  /-- A year: up to four digits, or any number of digits after a sign. -/
  | year
  /-- A month by its number. -/
  | month
  | day
  /-- An hour of the whole day. -/
  | hour
  /-- An hour of half a day, from 1 to 12. -/
  | halfDayHour
  | minute
  | second
  /-- Nothing, or a point and digits, of which nine count. -/
  | fraction
  /-- A month by its English name, whole or cut to three letters. -/
  | monthName
  /-- The half of the day, `am` or `pm`. -/
  | meridiem
  /-- Any run of white space. -/
  | blank
  /-- This character. -/
  | char (c : Char)
deriving DecidableEq, Repr

/-- A sequence of parts. -/
abbrev Pattern := List Item

/-- The parts that a text has given so far. -/
structure Parts where
  year : Option Int := none
  month : Option Nat := none
  day : Option Nat := none
  hour : Option Nat := none
  halfDayHour : Option Nat := none
  afternoon : Option Bool := none
  minute : Option Nat := none
  second : Option Nat := none
  nano : Option Nat := none
deriving DecidableEq, Repr

/-! ### Reading one item -/

/-- A number of at most `most` digits, after any white space. -/
def readNumber (most : Nat) (s : List Char) : Option (Nat × List Char) :=
  match Text.takeDigits most (Text.trimLeft s) with
  | ([], _) => none
  | (ds, rest) => some (Text.numeral ds, rest)

/-- A run of digits of any length, right here. -/
def readDigitRun (s : List Char) : Option (List Char × List Char) :=
  match Text.takeAllDigits s with
  | ([], _) => none
  | (ds, rest) => some (ds, rest)

/-- A year, after any white space. -/
def readYear (s : List Char) : Option (Int × List Char) :=
  match Text.trimLeft s with
  | '-' :: rest => (readDigitRun rest).map fun (ds, after) => (-(Text.numeral ds : Int), after)
  | '+' :: rest => (readDigitRun rest).map fun (ds, after) => ((Text.numeral ds : Int), after)
  | trimmed => (readNumber 4 trimmed).map fun (n, after) => ((n : Int), after)

/-- The nanoseconds that the digits after a point write. -/
def nanoOfFraction (ds : List Char) : Nat :=
  let kept := ds.take 9
  Text.numeral kept * Nat.pow 10 (9 - kept.length)

/-- Drops `expected` from the front of a text, in any case; `expected` is in lower case. -/
def dropWord (expected : List Char) (s : List Char) : Option (List Char) :=
  if Text.lower (s.take expected.length) = expected then some (s.drop expected.length) else none

/-- The English month names in order, each cut after its third letter. -/
def monthNames : List (String × String) :=
  [("jan", "uary"), ("feb", "ruary"), ("mar", "ch"), ("apr", "il"), ("may", ""), ("jun", "e"),
    ("jul", "y"), ("aug", "ust"), ("sep", "tember"), ("oct", "ober"), ("nov", "ember"),
    ("dec", "ember")]

/-- A month name: its first three letters, and the others too if they follow. -/
def readMonthName (s : List Char) : Option (Nat × List Char) :=
  (monthNames.zipIdx 1).findSome? fun ((short, remainder), number) =>
    (dropWord short.toList s).map fun rest =>
      (number, (dropWord remainder.toList rest).getD rest)

/-- Reads one item from the front of a text and records what it says. -/
def Item.read (item : Item) (parts : Parts) (s : List Char) : Option (Parts × List Char) :=
  match item with
  | .year => (readYear s).map fun (y, rest) => ({ parts with year := some y }, rest)
  | .month => (readNumber 2 s).map fun (n, rest) => ({ parts with month := some n }, rest)
  | .day => (readNumber 2 s).map fun (n, rest) => ({ parts with day := some n }, rest)
  | .hour => (readNumber 2 s).map fun (n, rest) => ({ parts with hour := some n }, rest)
  | .halfDayHour =>
    (readNumber 2 s).map fun (n, rest) => ({ parts with halfDayHour := some n }, rest)
  | .minute => (readNumber 2 s).map fun (n, rest) => ({ parts with minute := some n }, rest)
  | .second => (readNumber 2 s).map fun (n, rest) => ({ parts with second := some n }, rest)
  | .fraction =>
    match s with
    | '.' :: rest =>
      (readDigitRun rest).map fun (ds, after) =>
        ({ parts with nano := some (nanoOfFraction ds) }, after)
    | _ => some (parts, s)
  | .monthName => (readMonthName s).map fun (n, rest) => ({ parts with month := some n }, rest)
  | .meridiem =>
    match dropWord ['a', 'm'] s with
    | some rest => some ({ parts with afternoon := some false }, rest)
    | none =>
      (dropWord ['p', 'm'] s).map fun rest => ({ parts with afternoon := some true }, rest)
  | .blank => some (parts, Text.trimLeft s)
  | .char c =>
    match s with
    | d :: rest => if d = c then some (parts, rest) else none
    | [] => none

/-! ### Reading a whole text -/

/-- Reads the items in order from the front of a text. -/
def readItems : Pattern → Parts → List Char → Option (Parts × List Char)
  | [], parts, s => some (parts, s)
  | item :: items, parts, s =>
    match item.read parts s with
    | none => none
    | some (parts, rest) => readItems items parts rest

/-- The parts of a text that a pattern describes completely. -/
def Pattern.parts? (pattern : Pattern) (s : List Char) : Option Parts :=
  match readItems pattern {} s with
  | some (parts, []) => some parts
  | _ => none

/-- The day that the parts name. -/
def Parts.date? (p : Parts) : Option Date :=
  match p.year, p.month, p.day with
  | some year, some month, some day => Date.ofParts? year month day
  | _, _, _ => none

/-- The hour of the whole day, from either way of counting hours. -/
def Parts.hour24? (p : Parts) : Option Nat :=
  match p.hour, p.halfDayHour, p.afternoon with
  | some hour, _, _ => some hour
  | none, some half, some afternoon =>
    if 1 ≤ half ∧ half ≤ 12 then some (half % 12 + if afternoon then 12 else 0) else none
  | _, _, _ => none

/-- The time of day that the parts name; seconds and their fraction may be left out. -/
def Parts.time? (p : Parts) : Option Time :=
  match p.hour24?, p.minute with
  | some hour, some minute => Time.ofParts? hour minute (p.second.getD 0) (p.nano.getD 0)
  | _, _ => none

/-- The day that a text names in this pattern. -/
def Pattern.date? (pattern : Pattern) (s : List Char) : Option Date :=
  (pattern.parts? s).bind Parts.date?

/-- The time of day that a text names in this pattern. -/
def Pattern.time? (pattern : Pattern) (s : List Char) : Option Time :=
  (pattern.parts? s).bind Parts.time?

/-- The day and time that a text names in this pattern. -/
def Pattern.dateTime? (pattern : Pattern) (s : List Char) : Option DateTime :=
  (pattern.parts? s).bind fun p =>
    match p.date?, p.time? with
    | some date, some time => some ⟨date, time⟩
    | _, _ => none

end Calendar

end FilterSelect
