/-
Reading decimal constants.

A numeral is a sign, digits with at most one point, and underscores between
digits.  Digits that a decimal has no room for are dropped after the point, the
first of them rounding the rest half up; before the point they are an error.  A
numeral with an exponent is read as its base and then moved by the exponent, and
what does not fit after that move is an error too.

`Decimal.read` tries the two readings in this order and reports the second one's
reason, which is the more telling of the two for a text with an exponent.
-/
import FilterSelect.Number.Decimal

namespace FilterSelect

namespace Decimal

/-- Why a text is no decimal constant. -/
inductive Fault where
  | empty
  | unknownCharacter
  | secondPoint
  | noDigits
  | leadingSeparator
  | tooManyDigits
  | roundedTooLarge
  /-- Not a numeral with an exponent, or one whose exponent is malformed. -/
  | malformed
  | exponentTooLarge (exponent : Nat)
  | tooLarge
deriving DecidableEq, Repr

/-- The wording of a fault. -/
def Fault.message : Fault → String
  | .empty => "Invalid decimal: empty"
  | .unknownCharacter => "Invalid decimal: unknown character"
  | .secondPoint => "Invalid decimal: two decimal points"
  | .noDigits => "Invalid decimal: no digits found"
  | .leadingSeparator => "Invalid decimal: must start lead with a number"
  | .tooManyDigits => "Invalid decimal: overflow from too many digits"
  | .roundedTooLarge => "Invalid decimal: overflow from mantissa after rounding"
  | .malformed => "Failed to parse"
  | .exponentTooLarge n => "Scale exceeds the maximum precision allowed: " ++ toString n ++ " > 28"
  | .tooLarge => "Number exceeds maximum value that can be represented."

/-! ### Numerals without an exponent -/

/-- What has been read of a numeral so far. -/
structure Progress where
  coefficient : Nat
  scale : Nat
  /-- The point has been passed. -/
  inFraction : Bool
  /-- At least one digit has been read. -/
  started : Bool

/-- What a character that is no digit means where only digits may stand. -/
def faultOf (c : Char) : Fault :=
  if c = '.' then .secondPoint
  else if c = '_' then .leadingSeparator
  else .unknownCharacter

/--
Ends a numeral whose next digit finds no room: that digit rounds, the others are
dropped.  Whether a whole number can be rounded at all is settled before the
others are looked at.
-/
def roundOff (p : Progress) (digit : Nat) (rest : List Char) : Except Fault (Nat × Nat) :=
  let up := 5 ≤ digit
  let overflows := up ∧ 1 <<< 96 ≤ p.coefficient + 1
  if overflows ∧ p.scale = 0 then .error .roundedTooLarge
  else
    match rest.find? fun c => !(c.isDigit || c == '_') with
    | some c => .error (faultOf c)
    | none =>
      if overflows then .ok ((p.coefficient + 5) / 10, p.scale - 1)
      else .ok (if up then p.coefficient + 1 else p.coefficient, p.scale)

/-- Coefficients below this take another digit within 64 bits, with room to spare. -/
def wordLimit : Nat := ((1 <<< 64) - 1) / 10 - 255

/--
Whether every digit was taken within 64 bits.  Behind the last place of such a
numeral an underscore ends the reading as the digit zero would; in a longer one
the digit after the underscores rounds.
-/
def Progress.isShort (p : Progress) : Bool := p.coefficient / 10 < wordLimit

/-- Coefficient and scale of the digits in a text, after what `p` has read. -/
def readDigits (p : Progress) : List Char → Except Fault (Nat × Nat)
  | [] => if p.started then .ok (p.coefficient, p.scale) else .error .noDigits
  | c :: rest =>
    let full := p.inFraction && p.scale == maxScale
    if c.isDigit then
      let digit := Text.digitValue c
      let next := 10 * p.coefficient + digit
      if full then roundOff p digit rest
      else if next < 1 <<< 96 then
        readDigits ⟨next, if p.inFraction then p.scale + 1 else 0, p.inFraction, true⟩ rest
      else if p.inFraction then roundOff p digit rest
      else .error .tooManyDigits
    else if c = '_' && p.started then
      if full && p.isShort then roundOff p 0 rest else readDigits p rest
    else if c = '.' && !p.inFraction then
      readDigits { p with inFraction := true } rest
    else .error (faultOf c)

/-- Reads a numeral without an exponent.  Zero has no sign here. -/
def readPlain (s : List Char) : Except Fault Decimal :=
  match s with
  | [] => .error .empty
  | _ :: _ =>
    let signed := Text.splitSign s
    match readDigits ⟨0, 0, false, false⟩ signed.2 with
    | .error fault => .error fault
    | .ok (coefficient, scale) =>
      match ofParts? (signed.1 && coefficient != 0) coefficient scale with
      | some d => .ok d
      | none => .error .tooLarge

/-! ### Numerals with an exponent -/

/-- An exponent's size: digits after an optional plus sign, below `2^32`. -/
def readExponent (s : List Char) : Option Nat :=
  let ds := match s with
    | '+' :: rest => rest
    | _ => s
  if ds.isEmpty || !ds.all Char.isDigit then none
  else
    let n := Text.numeral ds
    if n < 1 <<< 32 then some n else none

/--
Moves the point to the right.  While the scale covers the move only the scale
changes; past it the coefficient grows.
-/
def shiftUp (d : Decimal) (n : Nat) : Except Fault Decimal :=
  if n ≤ d.scale then
    .ok { d with scale := d.scale - n, scale_le := Nat.le_trans (Nat.sub_le ..) d.scale_le }
  else if maxScale < n then .error (.exponentTooLarge n)
  else
    match ofParts? d.negative (d.coefficient * Nat.pow 10 (n - d.scale)) 0 with
    | some moved => .ok moved
    | none => .error .tooLarge

/-- Moves the point to the left, after rounding away digits that would end past the last place. -/
def shiftDown (d : Decimal) (n : Nat) : Except Fault Decimal :=
  if maxScale < n then .error (.exponentTooLarge n)
  else
    let surplus := d.scale + n - maxScale
    let unit := Nat.pow 10 surplus
    match ofParts? d.negative ((d.coefficient + unit / 2) / unit) (d.scale + n - surplus) with
    | some moved => .ok moved
    | none => .error .tooLarge

/-- Reads a numeral with an exponent. -/
def readScientific (s : List Char) : Except Fault Decimal :=
  let isMark := fun c => c == 'e' || c == 'E'
  match s.dropWhile fun c => !isMark c with
  | [] => .error .malformed
  | _ :: exponent =>
    match readPlain (s.takeWhile fun c => !isMark c) with
    | .error fault => .error fault
    | .ok base =>
      match exponent with
      | '-' :: size =>
        match readExponent size with
        | some n => base.shiftDown n
        | none => .error .malformed
      | size =>
        match readExponent size with
        | some n => base.shiftUp n
        | none => .error .malformed

/-- Reads a decimal constant. -/
def read (s : List Char) : Except Fault Decimal :=
  match readPlain s with
  | .ok d => .ok d
  | .error _ => readScientific s

end Decimal

end FilterSelect
