/-
Reading doubles.

A numeral is a sign, digits with at most one point, and an exponent, where digits
on one side of the point are enough.  It is rounded once, to the nearest double.
Infinities and the number that is none can be written too, by name and in any
case; a numeral beyond the finite range reads as an infinity.
-/
import FilterSelect.Number.Binary64
import FilterSelect.Text.Blank

namespace FilterSelect

namespace Binary64

/-- What the text of a double denotes. -/
inductive Reading where
  | finite (x : Binary64)
  | infinite (negative : Bool)
  | notANumber
deriving DecidableEq

/-- Why a text is no double. -/
inductive Fault where
  | empty
  | malformed
deriving DecidableEq, Repr

/-- The wording of a fault. -/
def Fault.message : Fault → String
  | .empty => "cannot parse float from empty string"
  | .malformed => "invalid float literal"

/-- An exponent with its mark, or nothing, at the end of a text. -/
def readExponent : List Char → Option Int
  | [] => some 0
  | mark :: rest => if mark = 'e' ∨ mark = 'E' then Text.signedNumeral? rest else none

/-- Digits, point and exponent as a whole number and the power of ten it is multiplied with. -/
def readNumeral (s : List Char) : Option (Nat × Int) :=
  let (whole, rest) := Text.takeAllDigits s
  let (fraction, rest) :=
    match rest with
    | '.' :: rest => Text.takeAllDigits rest
    | _ => ([], rest)
  if whole = [] ∧ fraction = [] then none
  else (readExponent rest).map fun e => (Text.numeral (whole ++ fraction), e - fraction.length)

/-- Reads a double. -/
def read (s : List Char) : Except Fault Reading :=
  let (negative, unsigned) := Text.splitSign s
  let word := Text.lower unsigned
  if s = [] then .error .empty
  else if word = "inf".toList ∨ word = "infinity".toList then .ok (.infinite negative)
  else if word = "nan".toList then .ok .notANumber
  else
    match readNumeral unsigned with
    | none => .error .malformed
    | some (n, k) =>
      match ofDecimal? negative n k with
      | some x => .ok (.finite x)
      | none => .ok (.infinite negative)

end Binary64

end FilterSelect
