/-
The shortest decimal text of a double.

Which digits are written and how they are laid out are two questions.  `shortest`
answers the first by exact arithmetic: of all decimal numbers that round to `x` it
takes those with the fewest digits, and of these the nearest to `x`.  A `Layout`
answers the second: where positional notation ends, whether a whole number shows
a fraction, how an exponent is written, and which way an exact tie between two
nearest candidates goes.

Some grid point of step `10^k` rounds to `x` if and only if one of the two grid
points next to `x` does, so testing these two on each grid, coarsest first, finds
the shortest.
-/
import FilterSelect.Number.Binary64

namespace FilterSelect

namespace Binary64

/-- The decimal number `digits · 10^exponent`. -/
structure DecimalForm where
  digits : Nat
  exponent : Int
deriving DecidableEq, Repr

/-- How the digits of a double are laid out. -/
structure Layout where
  /-- An exponent is written below `10^positionalFrom`, … -/
  positionalFrom : Option Int
  /-- … and from `10^positionalUpto` on.  Where a bound is absent, none is ever written. -/
  positionalUpto : Option Int
  /-- A whole number in positional notation is followed by `.0`. -/
  wholeHasFraction : Bool
  /-- A positive exponent carries a plus sign. -/
  plusSign : Bool
  /-- Between two candidates at the same distance the greater is taken, else the even one. -/
  tieUp : Bool

/-! ### Which digits -/

/-- Four times the magnitude, in the units in which both half gaps are whole. -/
def quarters (x : Binary64) : Nat :=
  4 * x.significand

/-- The half gap below `x`, in quarters of the last place: it is narrower at a power of two. -/
def gapBelow (x : Binary64) : Nat :=
  if x.significand = 1 <<< 52 ∧ x.exponent ≠ -1074 then 1 else 2

/-- Whether `d · 10^k` rounds to the magnitude of `x`; the ends count for an even significand. -/
def readsBack (x : Binary64) (d : Nat) (k : Int) : Bool :=
  let e := x.exponent - 2
  -- both sides in units of `2^e`, scaled up to whole numbers
  let point := (d * Nat.pow 10 k.toNat) <<< (-e).toNat
  let unit := (Nat.pow 10 (-k).toNat) <<< e.toNat
  let low := (x.quarters - x.gapBelow) * unit
  let high := (x.quarters + 2) * unit
  if x.significand % 2 = 0 then decide (low ≤ point) && decide (point ≤ high)
  else decide (low < point) && decide (point < high)

/-- The greatest `k` with `10^k ≤ x`, for a positive `x`. -/
def floorLog10 (x : Binary64) : Int :=
  let num := x.numerator
  let den := x.denominator
  let k : Int := ((Text.digits num).length : Int) - (Text.digits den).length
  if den * Nat.pow 10 k.toNat ≤ num * Nat.pow 10 (-k).toNat then k else k - 1

/-- The better of the two grid points of step `10^k` next to `x`, if one of them reads back. -/
def onGrid? (x : Binary64) (tieUp : Bool) (k : Int) : Option Nat :=
  let num := x.numerator * Nat.pow 10 (-k).toNat
  let den := x.denominator * Nat.pow 10 k.toNat
  let below := num / den
  let twice := 2 * (num % den)
  match x.readsBack below k, x.readsBack (below + 1) k with
  | true, true =>
    if twice < den then some below
    else if den < twice then some (below + 1)
    else if tieUp then some (below + 1)
    else some (below + below % 2)
  | true, false => some below
  | false, true => some (below + 1)
  | false, false => none

/--
The shortest decimal that reads back as the magnitude of `x`.  Seventeen digits
always suffice, so the grids tried are those of one to eighteen digits.
-/
def shortest (x : Binary64) (tieUp : Bool) : DecimalForm :=
  let top := x.floorLog10
  let found := (List.range 18).findSome? fun (i : Nat) =>
    (x.onGrid? tieUp (top - i)).map fun d => DecimalForm.mk d (top - i)
  match found with
  | some ⟨10, k⟩ => ⟨1, k + 1⟩
  | some d => d
  | none => ⟨0, 0⟩

/-! ### How they are laid out -/

/-- Digits with the decimal point `point` places after the first one. -/
def positional (ds : List Char) (point : Int) (wholeHasFraction : Bool) : List Char :=
  if point ≤ 0 then
    '0' :: '.' :: (List.replicate (-point).toNat '0' ++ ds)
  else
    let n := point.toNat
    if ds.length ≤ n then
      ds ++ List.replicate (n - ds.length) '0' ++ (if wholeHasFraction then ['.', '0'] else [])
    else ds.take n ++ '.' :: ds.drop n

/-- Digits in scientific notation, the first one before the point. -/
def scientific (ds : List Char) (e : Int) (plusSign : Bool) : List Char :=
  let mantissa :=
    match ds with
    | [] => []
    | [d] => [d]
    | d :: rest => d :: '.' :: rest
  mantissa ++ 'e' :: ((if plusSign && decide (0 ≤ e) then ['+'] else []) ++ Text.signedDigits e)

/-- The text of `x` in a layout. -/
def render (layout : Layout) (x : Binary64) : List Char :=
  let sign := if x.negative then ['-'] else []
  if x.isZero then
    sign ++ '0' :: (if layout.wholeHasFraction then ['.', '0'] else [])
  else
    let decimal := x.shortest layout.tieUp
    let ds := Text.digits decimal.digits
    let e := decimal.exponent + ds.length - 1
    let tooSmall := (layout.positionalFrom.map fun low => decide (e < low)).getD false
    let tooLarge := (layout.positionalUpto.map fun high => decide (high ≤ e)).getD false
    sign ++
      (if tooSmall || tooLarge then scientific ds e layout.plusSign
       else positional ds (e + 1) layout.wholeHasFraction)

/-- Positional notation throughout, and whole numbers without a fraction. -/
def plain : Layout :=
  ⟨none, none, false, false, true⟩

/-- The text of `x` without an exponent, as a SQL literal needs it. -/
def plainText (x : Binary64) : List Char :=
  x.render plain

end Binary64

end FilterSelect
