/-
Finite double-precision numbers.

A magnitude is held as its rank, the number of non-negative finite doubles below
it.  Ranks make the type canonical, so equality of doubles is equality of fields,
and they make rounding one formula: with `e` the exponent of the last place and
`q` the rounded significand, the rank is `q + (e + 1074) · 2^52`, also for
subnormal numbers and also when rounding carries into the next binade.

All arithmetic is exact arithmetic on ratios of natural numbers followed by one
rounding, to the nearest double and to the one of even significand on a tie.
-/
import FilterSelect.Text.Digits

namespace FilterSelect

/-- `num / den` rounded to the nearest whole number, a tie going to the even neighbour. -/
def divToEven (num den : Nat) : Nat :=
  let q := num / den
  let twice := 2 * (num % den)
  if twice < den then q
  else if den < twice then q + 1
  else q + q % 2

/-- A finite double: its sign and the number of non-negative doubles below its magnitude. -/
structure Binary64 where
  negative : Bool
  rank : Nat
  rank_lt : rank < 2047 <<< 52
deriving DecidableEq

namespace Binary64

/-- Zero of either sign. -/
def zero (negative : Bool) : Binary64 :=
  ⟨negative, 0, by decide⟩

/-- The finite double of greatest magnitude. -/
def largest (negative : Bool) : Binary64 :=
  ⟨negative, (2047 <<< 52) - 1, by decide⟩

instance : Inhabited Binary64 := ⟨zero false⟩

/-- The significand as a whole number, counted in units of the last place. -/
def significand (x : Binary64) : Nat :=
  if x.rank < 1 <<< 52 then x.rank else (1 <<< 52) + x.rank % (1 <<< 52)

/-- The binary exponent of the last place. -/
def exponent (x : Binary64) : Int :=
  if x.rank < 1 <<< 52 then -1074 else (x.rank >>> 52 : Nat) - 1075

/-- The magnitude is `numerator / denominator`. -/
def numerator (x : Binary64) : Nat :=
  x.significand <<< x.exponent.toNat

/-- A power of two, hence positive. -/
def denominator (x : Binary64) : Nat :=
  1 <<< (-x.exponent).toNat

/-- Zero of either sign. -/
def isZero (x : Binary64) : Bool :=
  x.rank == 0

/-- The whole number that `x` is, if it is one. -/
def toInt? (x : Binary64) : Option Int :=
  if x.numerator % x.denominator = 0 then
    let n : Int := (x.numerator / x.denominator : Nat)
    some (if x.negative then -n else n)
  else none

/-! ### Rounding -/

/-- The greatest `e` with `2^e ≤ num / den`, for positive `num` and `den`. -/
def floorLog2 (num den : Nat) : Int :=
  let k : Int := (num.log2 : Int) - den.log2
  if den <<< k.toNat ≤ num <<< (-k).toNat then k else k - 1

/-- The double nearest to `num / den`; none when that lies beyond the finite range. -/
def ofRatio? (negative : Bool) (num den : Nat) : Option Binary64 :=
  if num = 0 then some (zero negative)
  else
    let e := max (floorLog2 num den - 52) (-1074)
    let q := divToEven (num <<< (-e).toNat) (den <<< e.toNat)
    let rank := q + ((e + 1074).toNat <<< 52)
    if h : rank < 2047 <<< 52 then some ⟨negative, rank, h⟩ else none

/--
The double nearest to `± n · 10^k`; none beyond the finite range.

A number of more than 310 places before the point is out of range, and one that
starts more than 330 places after it is nearer to zero than to any other double,
so the powers of ten that are computed stay small.
-/
def ofDecimal? (negative : Bool) (n : Nat) (k : Int) : Option Binary64 :=
  if n = 0 then some (zero negative)
  else
    let places := k + (Text.digits n).length
    if 310 < places then none
    else if places < -330 then some (zero negative)
    else ofRatio? negative (n * Nat.pow 10 k.toNat) (Nat.pow 10 (-k).toNat)

/-- The double nearest to a whole number of ordinary size. -/
def ofInt (i : Int) : Binary64 :=
  (ofRatio? (decide (i < 0)) i.natAbs 1).getD (largest (decide (i < 0)))

/-! ### Arithmetic -/

/-- The product, rounded; none beyond the finite range. -/
def mul? (x y : Binary64) : Option Binary64 :=
  ofRatio? (x.negative != y.negative) (x.numerator * y.numerator) (x.denominator * y.denominator)

/-- The quotient by a number that is not zero, rounded; none beyond the finite range. -/
def div? (x y : Binary64) : Option Binary64 :=
  ofRatio? (x.negative != y.negative) (x.numerator * y.denominator) (x.denominator * y.numerator)

end Binary64

end FilterSelect
