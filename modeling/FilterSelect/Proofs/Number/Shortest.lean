/-
The texts of JSON numbers are numerals, and short ones.

A number of JSON is written in one of two layouts.  A word is written with all its digits,
of which there are twenty at most.  A double is written with the fewest digits that read
back, and these come from a grid that has at most eighteen places below the leading digit
of the double (`digits_shortest_le`).  Up to 16 places before the point and 4 zeros behind it
are written out, and everything else has an exponent.

So whatever stands before an exponent has less than 28 digits (`exists_numeralText`), which
is why a decimal has room for it.
-/
import FilterSelect.Json.Basic
import FilterSelect.Proofs.Number.Exponents
import FilterSelect.Proofs.Number.Rounding

namespace FilterSelect

open Decimal (DigitsText ExponentText NumeralText SignText Fits signed)

/-! ### How many digits there are

The grid that a double is looked for on is chosen by its leading digit, and the finest one has
eighteen places more.
-/

namespace Text

private theorem lt_pow_length_digits (n : Nat) : n < 10 ^ (digits n).length :=
  (Nat.length_toDigits_le_iff (by decide) Nat.length_toDigits_pos).mp (Nat.le_refl _)

private theorem pow_length_digits_le {n : Nat} (h : 0 < n) : 10 ^ ((digits n).length - 1) ≤ n := by
  by_contra hlt
  have hpos : 0 < (digits n).length := Nat.length_toDigits_pos
  rcases Nat.eq_zero_or_pos ((digits n).length - 1) with hone | hmore
  · rw [hone, Nat.pow_zero] at hlt
    omega
  · have hle : (digits n).length ≤ (digits n).length - 1 :=
      (Nat.length_toDigits_le_iff (by decide) hmore).mpr (Nat.lt_of_not_le hlt)
    omega

end Text

namespace Binary64

/-- The leading digit of a double is not more places before the point than its logarithm says. -/
theorem magnitude_lt_floorLog10 (x : Binary64) : x.magnitude < 10 ^ (x.floorLog10 + 1) := by
  have hden := x.denominator_pos
  have hden' : (0 : ℚ) < x.denominator := by exact_mod_cast hden
  have hnumerator : (x.numerator : ℚ) < 10 ^ (Text.digits x.numerator).length := by
    exact_mod_cast Text.lt_pow_length_digits x.numerator
  have hdenominator : (10 : ℚ) ^ ((Text.digits x.denominator).length - 1) ≤ x.denominator := by
    exact_mod_cast Text.pow_length_digits_le hden
  have hpos : 0 < (Text.digits x.denominator).length := Nat.length_toDigits_pos
  rw [← numerator_div_denominator, div_lt_iff₀ hden']
  unfold floorLog10
  dsimp only
  generalize (Text.digits x.numerator).length = a at *
  generalize (Text.digits x.denominator).length = b at *
  split
  · calc (x.numerator : ℚ) < 10 ^ a := hnumerator
      _ = 10 ^ ((a : ℤ) - b + 1) * 10 ^ (b - 1) := by
        rw [← zpow_natCast, ← zpow_natCast, ← zpow_add₀ (by norm_num)]
        congr 1
        omega
      _ ≤ 10 ^ ((a : ℤ) - b + 1) * x.denominator := by gcongr
  · rename_i hlt
    rw [Nat.not_le, ← Nat.cast_lt (α := ℚ)] at hlt
    change ((x.numerator * 10 ^ (-((a : ℤ) - b)).toNat : Nat) : ℚ) <
      (x.denominator * 10 ^ ((a : ℤ) - b).toNat : Nat) at hlt
    push_cast at hlt
    rw [pow_toNat (by norm_num) ((a : ℤ) - b), ← mul_assoc] at hlt
    rw [sub_add_cancel, mul_comm]
    exact lt_of_mul_lt_mul_right hlt (by positivity)

private theorem onGrid?_le {x : Binary64} {tieUp : Bool} {k : ℤ} {d : Nat}
    (h : x.onGrid? tieUp k = some d) :
    d ≤ x.numerator * 10 ^ (-k).toNat / (x.denominator * 10 ^ k.toNat) + 1 := by
  simp only [onGrid?, Nat.pow_eq] at h
  generalize x.numerator * 10 ^ (-k).toNat / (x.denominator * 10 ^ k.toNat) = below at h ⊢
  split at h
  · split at h
    · cases h
      omega
    · split at h
      · cases h
        omega
      · split at h
        · cases h
          omega
        · cases h
          omega
  · cases h
    omega
  · cases h
    omega
  · cases h

/-- A grid of `i` places below the leading digit offers numbers of one digit more. -/
theorem onGrid?_le_pow {x : Binary64} {tieUp : Bool} {i d : Nat}
    (h : x.onGrid? tieUp (x.floorLog10 - i) = some d) : d ≤ 10 ^ (i + 1) := by
  refine Nat.le_trans (onGrid?_le h) (Nat.succ_le_of_lt ?_)
  have hden := x.denominator_pos
  have hden' : (0 : ℚ) < x.denominator := by exact_mod_cast hden
  have hlt := x.magnitude_lt_floorLog10
  generalize hk : x.floorLog10 - i = k
  rw [show x.floorLog10 + 1 = k + ((i + 1 : Nat) : ℤ) by push_cast; omega,
    zpow_add₀ (by norm_num), zpow_natCast, ← numerator_div_denominator, div_lt_iff₀ hden'] at hlt
  rw [Nat.div_lt_iff_lt_mul (by positivity), ← Nat.cast_lt (α := ℚ)]
  push_cast
  rw [pow_toNat (by norm_num) k]
  calc (x.numerator : ℚ) * 10 ^ (-k).toNat
      < 10 ^ k * 10 ^ (i + 1) * x.denominator * 10 ^ (-k).toNat :=
        mul_lt_mul_of_pos_right hlt (by positivity)
    _ = 10 ^ (i + 1) * (x.denominator * (10 ^ k * 10 ^ (-k).toNat)) := by ring

private theorem digits_shortest_le (x : Binary64) (tieUp : Bool) :
    (x.shortest tieUp).digits ≤ 10 ^ 18 := by
  unfold shortest
  dsimp only
  split
  · show 1 ≤ 10 ^ 18
    decide
  · rename_i d _ hfound
    obtain ⟨i, hi, hgrid⟩ := List.exists_of_findSome?_eq_some hfound
    obtain ⟨m, hm, rfl⟩ := Option.map_eq_some_iff.mp hgrid
    have hle : i + 1 ≤ 18 := List.mem_range.mp hi
    exact (onGrid?_le_pow hm).trans (Nat.pow_le_pow_right (by decide) hle)
  · exact Nat.zero_le _

theorem length_digits_shortest (x : Binary64) (tieUp : Bool) :
    (Text.digits (x.shortest tieUp).digits).length ≤ 19 := by
  have hlt : (x.shortest tieUp).digits < 10 ^ 19 :=
    (x.digits_shortest_le tieUp).trans_lt (by decide)
  exact (Nat.length_toDigits_le_iff (by decide) (by decide)).mpr hlt

end Binary64

/-! ### Layouts

Either layout puts the digits down as they are, with zeros or an exponent added, so what stands
before the exponent stays short.
-/

/-- Where all that stands before an exponent is short, a decimal has room for it. -/
theorem fits_of_length {n k : Nat} {s : List Char} (h : DigitsText n k s) (hlength : s.length ≤ 28)
    (negative : Bool) : Fits (signed negative (n / 10 ^ k)) := by
  rw [Decimal.fits_signed_iff (by positivity)]
  have hbound {ds : List Char} (h : IsDigits ds) (hle : ds.length ≤ 28) :
      Text.numeral ds < 2 ^ 96 := by
    have hlt := Text.continued_lt h.all 0
    rw [Nat.zero_add, Nat.mul_one] at hlt
    exact hlt.trans (lt_of_le_of_lt (Nat.pow_le_pow_right (by decide) hle) (by decide))
  refine ⟨n, k, ?_, ?_, div_mul_cancel₀ _ (by positivity)⟩
  · cases h with
    | whole h => exact hbound h hlength
    | point h =>
        rw [List.length_append, List.length_cons] at hlength
        exact hbound h (by rw [List.length_append]; omega)
  · cases h with
    | whole h => exact Nat.zero_le _
    | point h =>
        rw [List.length_append, List.length_cons] at hlength
        omega

theorem exists_positional {ds : List Char} (h : IsDigits ds) (hlength : ds.length ≤ 19) {point : ℤ}
    (hlow : -4 ≤ point) (hhigh : point ≤ 16) : ∃ n k,
      DigitsText n k (Binary64.positional ds point true) ∧
        (Binary64.positional ds point true).length ≤ 28 := by
  unfold Binary64.positional
  split
  · have hfraction : IsDigits (['0'] ++ (List.replicate (-point).toNat '0' ++ ds)) :=
      (h.prepend isDigit_of_mem_zeros).prepend isDigits_zero.all
    refine ⟨_, _, .point hfraction, ?_⟩
    simp only [List.length_cons, List.length_append, List.length_replicate]
    omega
  · rename_i hpoint
    dsimp only
    split
    · rename_i hwhole
      have hdigits : IsDigits (ds ++ List.replicate (point.toNat - ds.length) '0' ++ ['0']) :=
        (h.append isDigit_of_mem_zeros).append isDigits_zero.all
      refine ⟨_, _, .point hdigits, ?_⟩
      simp only [if_true, List.length_cons, List.length_append, List.length_replicate,
        List.length_nil]
      omega
    · refine ⟨_, _, .point (by rwa [List.take_append_drop]), ?_⟩
      rw [List.length_append, List.length_cons, List.length_take, List.length_drop]
      omega

/-- The digits of scientific notation are short, and then comes the exponent. -/
theorem exists_scientific {ds : List Char} (h : IsDigits ds) (hlength : ds.length ≤ 19) (e : ℤ) :
    ∃ n k digits exponent, DigitsText n k digits ∧ digits.length ≤ 28 ∧ ExponentText e exponent ∧
      Binary64.scientific ds e true = digits ++ exponent := by
  have hexponent : ExponentText e
      ('e' :: ((if true && decide (0 ≤ e) then ['+'] else []) ++ Text.signedDigits e)) := by
    have hdigits := isDigits_digits e.natAbs
    unfold Text.signedDigits
    by_cases hnegative : e < 0
    · have htext := ExponentText.power (.inl rfl) .minus hdigits
      rw [if_pos rfl, Text.numeral_digits, show -(e.natAbs : ℤ) = e by omega] at htext
      rw [if_pos hnegative, if_neg (by simpa using hnegative)]
      exact htext
    · have htext := ExponentText.power (.inl rfl) .plus hdigits
      rw [if_neg Bool.false_ne_true, Text.numeral_digits,
        show (e.natAbs : ℤ) = e by omega] at htext
      rw [if_neg hnegative, if_pos (by simpa using hnegative)]
      exact htext
  obtain ⟨d, rest, rfl, -⟩ := h.exists_cons
  cases rest with
  | nil => exact ⟨_, _, [d], _, .whole h, by simp, hexponent, rfl⟩
  | cons d' rest =>
      have htext := @DigitsText.point [d] (d' :: rest) h
      refine ⟨_, _, d :: '.' :: d' :: rest, _, htext, ?_, hexponent, rfl⟩
      rw [List.length_cons, List.length_cons]
      rw [List.length_cons] at hlength
      omega

/-! ### JSON numbers -/

private theorem exists_numeralText_of_short {negative : Bool} {sign : List Char}
    (hsign : SignText negative sign) {n k : Nat} {digits : List Char}
    (hdigits : DigitsText n k digits) (hlength : digits.length ≤ 28) {power : ℤ}
    {exponent : List Char} (hexponent : ExponentText power exponent) :
    ∃ base power, NumeralText base power (sign ++ (digits ++ exponent)) ∧ Fits base :=
  ⟨_, _, .mk hsign hdigits hexponent, fits_of_length hdigits hlength negative⟩

private theorem signText_minus (negative : Bool) :
    SignText negative (if negative then ['-'] else []) := by
  cases negative with
  | false => exact .none
  | true => exact .minus

/-- The text of a word. -/
theorem exists_numeralText_integer {n : ℤ} (h : -(1 <<< 63) ≤ n ∧ n < 1 <<< 64) :
    ∃ base power, NumeralText base power (Text.signedDigits n) ∧ Fits base := by
  have hlength : (Text.digits n.natAbs).length ≤ 28 :=
    (Nat.length_toDigits_le_iff (by decide) (by decide)).mpr (by omega)
  have htext := exists_numeralText_of_short (signText_minus (decide (n < 0)))
    (.whole (isDigits_digits n.natAbs)) hlength .none
  rw [List.append_nil] at htext
  unfold Text.signedDigits
  split
  · rename_i hnegative
    simpa [hnegative] using htext
  · rename_i hnegative
    simpa [hnegative] using htext

/-- The text of a double. -/
theorem exists_numeralText_float (x : Binary64) :
    ∃ base power, NumeralText base power (x.render Json.Number.layout) ∧ Fits base := by
  have hsign := signText_minus x.negative
  unfold Binary64.render
  dsimp only [Json.Number.layout]
  generalize (if x.negative = true then ['-'] else []) = sign at hsign ⊢
  split
  · have hzero : DigitsText _ _ ['0', '.', '0'] :=
      @DigitsText.point ['0'] ['0'] ⟨nofun, List.all_eq_true.mp rfl⟩
    exact exists_numeralText_of_short hsign hzero (by decide) .none
  · have hdigits := isDigits_digits (x.shortest false).digits
    have hlength := x.length_digits_shortest false
    generalize Text.digits (x.shortest false).digits = ds at hdigits hlength ⊢
    generalize (x.shortest false).exponent + ds.length - 1 = e
    split
    · obtain ⟨n, k, digits, exponent, htext, hshort, hexponent, heq⟩ :=
        exists_scientific hdigits hlength e
      rw [heq]
      exact exists_numeralText_of_short hsign htext hshort hexponent
    · rename_i hnear
      simp only [Option.map_some, Option.getD_some, Bool.or_eq_true, decide_eq_true_eq] at hnear
      have hlow : -4 ≤ e + 1 := by omega
      have hhigh : e + 1 ≤ 16 := by omega
      obtain ⟨n, k, htext, hshort⟩ := exists_positional hdigits hlength hlow hhigh
      have hnumeral := exists_numeralText_of_short hsign htext hshort .none
      rwa [List.append_nil] at hnumeral

/-- A JSON number is written as a numeral whose base fits. -/
theorem Json.Number.exists_numeralText (n : Json.Number) :
    ∃ base power, NumeralText base power n.text ∧ Fits base := by
  cases n with
  | integer n h => exact exists_numeralText_integer h
  | float x => exact exists_numeralText_float x

end FilterSelect
