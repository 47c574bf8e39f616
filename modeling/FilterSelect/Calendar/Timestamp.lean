/-
RFC 3339 timestamps.

A timestamp gives a day, a time and the offset of the clock that shows them, each
part with a fixed number of digits.  It names the moment in universal time.
-/
import FilterSelect.Calendar.Pattern

namespace FilterSelect

namespace Calendar

/-- A number of exactly `count` digits. -/
def readExactly (count : Nat) (s : List Char) : Option (Nat × List Char) :=
  let taken := Text.takeDigits count s
  if taken.1.length = count then some (Text.numeral taken.1, taken.2) else none

/-- Drops the character `c` from the front. -/
def expect (c : Char) : List Char → Option (List Char)
  | d :: rest => if d = c then some rest else none
  | [] => none

/-- Minutes ahead of universal time: `Z`, or a sign, hours and minutes, at the end of a text. -/
def readOffset : List Char → Option Int
  | ['Z'] | ['z'] => some 0
  | sign :: rest => do
    let ahead ←
      if sign = '+' then some true
      else if sign = '-' ∨ sign = '\u2212' then some false
      else none
    let (hours, rest) ← readExactly 2 rest
    let rest ← expect ':' rest
    let (minutes, rest) ← readExactly 2 rest
    if rest = [] ∧ hours ≤ 23 ∧ minutes ≤ 59 then
      let size : Int := (60 * hours + minutes : Nat)
      some (if ahead then size else -size)
    else none
  | [] => none

/-- Nanoseconds of an optional fraction, and the text after it. -/
def readFraction : List Char → Option (Nat × List Char)
  | '.' :: rest => (readDigitRun rest).map fun (ds, after) => (nanoOfFraction ds, after)
  | s => some (0, s)

/-- The day and time that the local clock of a timestamp shows, and that clock's offset. -/
def readLocal (s : List Char) : Option (DateTime × Int) := do
  let (year, s) ← readExactly 4 s
  let s ← expect '-' s
  let (month, s) ← readExactly 2 s
  let s ← expect '-' s
  let (day, s) ← readExactly 2 s
  match s with
  | [] => none
  | separator :: s =>
    if separator = 'T' ∨ separator = 't' ∨ separator = ' ' then
      let (hour, s) ← readExactly 2 s
      let s ← expect ':' s
      let (minute, s) ← readExactly 2 s
      let s ← expect ':' s
      let (second, s) ← readExactly 2 s
      let (nano, s) ← readFraction s
      let offset ← readOffset s
      let date ← Date.ofParts? year month day
      let time ← Time.ofParts? hour minute second nano
      some (⟨date, time⟩, offset)
    else none

/-- The moment that a timestamp names. -/
def readTimestamp (s : List Char) : Option DateTime :=
  (readLocal s).bind fun (shown, offset) => shown.toUniversal? offset

end Calendar

end FilterSelect
