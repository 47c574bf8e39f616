/-
Decimal constants of fixed size.

A decimal is a sign, a coefficient below 2^96 and a scale of at most 28, so that
`3.0` and `3.00` are different constants.  The sign is kept apart from the
coefficient because one reading, the one that rounds a small number away, yields
a negative zero.
-/
import FilterSelect.Text.Digits

namespace FilterSelect

/-- The decimal number `± coefficient · 10^(-scale)`. -/
structure Decimal where
  negative : Bool
  coefficient : Nat
  scale : Nat
  coefficient_lt : coefficient < 1 <<< 96
  scale_le : scale ≤ 28
deriving DecidableEq

namespace Decimal

/-- The most digits a decimal has after its point. -/
def maxScale : Nat := 28

/-- A decimal of these parts, if they fit. -/
def ofParts? (negative : Bool) (coefficient scale : Nat) : Option Decimal :=
  if h : coefficient < 1 <<< 96 ∧ scale ≤ 28 then
    some ⟨negative, coefficient, scale, h.1, h.2⟩
  else none

/-- Plain notation with exactly `scale` digits after the point. -/
def text (d : Decimal) : List Char :=
  let ds := Text.padded (d.scale + 1) d.coefficient
  let whole := ds.take (ds.length - d.scale)
  let fraction := ds.drop (ds.length - d.scale)
  (if d.negative then ['-'] else []) ++ whole ++
    (if d.scale = 0 then [] else '.' :: fraction)

end Decimal

end FilterSelect
