/-
Number tokens.

A token without fraction and exponent is a whole number if that fits 64 bits; any
other token is a double.  Doubles are read in two roundings, which is not always
the nearest double: the leading digits that fit a 64-bit word are rounded to a
double, and this is then multiplied or divided by the double of a power of ten.
Digits past that word only count their places.
-/
import FilterSelect.Json.Basic

namespace FilterSelect

namespace Json

/-- The parts of a number token. -/
structure Numeral where
  negative : Bool
  whole : List Char
  /-- The digits after the point, if there is a point. -/
  fraction : Option (List Char)
  exponent : Option Int
deriving DecidableEq, Repr

namespace Numeral

/-! ### Reading the parts -/

/-- Fraction and exponent, at the end of a token. -/
def readTail (s : List Char) : Option (Option (List Char) × Option Int) :=
  let afterFraction (fraction : Option (List Char)) : List Char →
      Option (Option (List Char) × Option Int)
    | [] => some (fraction, none)
    | c :: rest =>
      if c = 'e' ∨ c = 'E' then
        (Text.signedNumeral? rest).map fun e => (fraction, some e)
      else none
  match s with
  | '.' :: rest =>
    match Text.takeAllDigits rest with
    | ([], _) => none
    | (ds, after) => afterFraction (some ds) after
  | _ => afterFraction none s

/-- The parts of a whole token.  No zero may stand in front of another digit. -/
def ofToken? (s : List Char) : Option Numeral :=
  let (negative, unsigned) : Bool × List Char :=
    match s with
    | '-' :: rest => (true, rest)
    | _ => (false, s)
  match Text.takeAllDigits unsigned with
  | ([], _) => none
  | ('0' :: _ :: _, _) => none
  | (whole, rest) => (readTail rest).map fun (fraction, exponent) =>
      ⟨negative, whole, fraction, exponent⟩

/-! ### The number that a token stands for -/

/-- Appends digits to a significand while it fits a 64-bit word; also counts those appended. -/
def keepDigits (significand : Nat) : List Char → Nat × Nat
  | [] => (significand, 0)
  | d :: ds =>
    let next := 10 * significand + Text.digitValue d
    if next < 1 <<< 64 then
      let kept := keepDigits next ds
      (kept.1, kept.2 + 1)
    else (significand, 0)

/-- The double nearest to a power of ten of at most 308. -/
def tenTo (k : Nat) : Binary64 :=
  (Binary64.ofDecimal? false 1 k).getD (Binary64.largest false)

/-- `± significand · 10^e` in two roundings; none beyond the finite range. -/
def scaled? (negative : Bool) (significand : Nat) (e : Int) : Option Binary64 :=
  match Binary64.ofRatio? negative significand 1 with
  | none => none
  | some x =>
    if x.isZero then some x
    else if 308 < e then none
    else if 0 ≤ e then x.mul? (tenTo e.toNat)
    else if -308 ≤ e then x.div? (tenTo (-e).toNat)
    else if -616 ≤ e then
      (x.div? (tenTo 308)).bind fun y => y.div? (tenTo (-e - 308).toNat)
    else some (Binary64.zero negative)

/-- The double that a token stands for. -/
def toBinary64? (t : Numeral) : Option Binary64 :=
  let whole := keepDigits 0 t.whole
  let all := keepDigits whole.1 (t.fraction.getD [])
  let e : Int := (t.whole.length - whole.2 : Nat) - (all.2 : Int) + t.exponent.getD 0
  scaled? t.negative all.1 e

/-- The number that a token stands for; none beyond the finite range. -/
def toNumber? (t : Numeral) : Option Number :=
  let n := Text.numeral t.whole
  let integral := t.fraction.isNone && t.exponent.isNone
  if h : integral = true ∧ t.negative = false ∧ n < 1 <<< 64 then
    some (.integer n ⟨by omega, by exact_mod_cast h.2.2⟩)
  else if h : integral = true ∧ t.negative = true ∧ 0 < n ∧ n ≤ 1 <<< 63 then
    some (.integer (-(n : Int)) ⟨by have := h.2.2.2; omega, by omega⟩)
  else t.toBinary64?.map .float

end Numeral

end Json

end FilterSelect
