/-
Signed 64-bit integers.

A whole number has a word of its own if it lies from -2^63 up to 2^63 - 1, and
`ofInt?` refuses every other one: nothing is ever cut down to fit.

An integer is written as digits after an optional sign.  `read` goes through them
one by one and stops at the first fault, so a text with too many digits and a
stray letter is refused for whichever comes first.
-/
import FilterSelect.Text.Digits

namespace FilterSelect

namespace Integer64

/-- The word of a whole number, if it has one. -/
def ofInt? (n : Int) : Option Int64 :=
  if -(1 <<< 63) ≤ n ∧ n < 1 <<< 63 then some (Int64.ofInt n) else none

/-- Digits, after a minus sign for a negative number. -/
def text (i : Int64) : List Char :=
  Text.signedDigits i.toInt

/-! ### Reading -/

/-- Why a text is no integer of 64 bits. -/
inductive Fault where
  | empty
  | invalidDigit
  | tooLarge
  | tooSmall
deriving DecidableEq, Repr

/-- The wording of a fault. -/
def Fault.message : Fault → String
  | .empty => "cannot parse integer from empty string"
  | .invalidDigit => "invalid digit found in string"
  | .tooLarge => "number too large to fit in target type"
  | .tooSmall => "number too small to fit in target type"

/-- Continues the number `n` with digits while it stays within `limit`. -/
def readDigits (limit : Nat) (beyond : Fault) : Nat → List Char → Except Fault Nat
  | n, [] => .ok n
  | n, c :: rest =>
    if c.isDigit then
      let next := 10 * n + Text.digitValue c
      if next ≤ limit then readDigits limit beyond next rest else .error beyond
    else .error .invalidDigit

/-- At least one digit, for a number within `limit`. -/
def readMagnitude (limit : Nat) (beyond : Fault) (s : List Char) : Except Fault Nat :=
  if s = [] then .error .invalidDigit else readDigits limit beyond 0 s

/-- Reads an integer. -/
def read (s : List Char) : Except Fault Int64 :=
  match s with
  | [] => .error .empty
  | '-' :: rest => (readMagnitude (1 <<< 63) .tooSmall rest).map fun n => Int64.ofInt (-(n : Int))
  | '+' :: rest => (readMagnitude ((1 <<< 63) - 1) .tooLarge rest).map fun n => Int64.ofInt n
  | _ => (readMagnitude ((1 <<< 63) - 1) .tooLarge s).map fun n => Int64.ofInt n

/-! ### What fits -/

/-- A number fits if it is the value of some word, and then that is the one. -/
theorem ofInt?_eq_some_iff {n : Int} {i : Int64} : ofInt? n = some i ↔ i.toInt = n := by
  unfold ofInt?
  constructor
  · intro h
    split at h
    · rename_i hn
      cases h
      exact Int64.toInt_ofInt_of_le hn.1 hn.2
    · cases h
  · rintro rfl
    rw [if_pos ⟨Int64.le_toInt i, Int64.toInt_lt i⟩, Int64.ofInt_toInt]

end Integer64

end FilterSelect
