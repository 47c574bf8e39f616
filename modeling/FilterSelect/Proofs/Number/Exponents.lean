/-
Numerals with an exponent, and what a whole numeral is read as.

A numeral is read in two steps.  First its base, which is all that stands before the
exponent, is rounded to the room there is, and then the point is moved.  To the right the
move is exact as long as the result has room.  To the left the digits that would end past
the last place are rounded away, once more half up.

`Outcome` says what comes of that.  A numeral is refused if its exponent is greater than 28
in size, or if its base or its number would round to `2^96`.  Otherwise the result differs
from the number by at most 11/20 of its last place, one half for the last rounding and one
twentieth for an earlier one, and it is the number itself if and only if both the base and
the number fit.
-/
import FilterSelect.Proofs.Number.Numerals

namespace FilterSelect

namespace Decimal

/-! ### Outcomes

What may come of a numeral is said of its number alone: it is read exactly, or rounded, or
refused where something about it is too great.
-/

/-- Neither the exponent nor the base nor the number that they make is too great. -/
structure InRange (base : ℚ) (power : ℤ) : Prop where
  power_le : |power| ≤ 28
  base_lt : |base| < 2 ^ 96 - 1 / 2
  lt : |base * 10 ^ power| < 2 ^ 96 - 1 / 2

/-- What comes of reading a numeral for `base * 10 ^ power`. -/
inductive Outcome (base : ℚ) (power : ℤ) : Except Fault Decimal → Prop
  | read {d : Decimal} (hrange : InRange base power)
      (hnear : |d.value - base * 10 ^ power| ≤ 11 / 20 / 10 ^ d.scale)
      (hexact : d.value = base * 10 ^ power ↔ Fits base ∧ Fits (base * 10 ^ power)) :
      Outcome base power (.ok d)
  | refused (h : ¬ InRange base power) (fault : Fault) : Outcome base power (.error fault)

variable {negative : Bool} {r : ℚ} {power : ℤ} {d : Decimal}

private theorem value_eq_signed (h : d.negative = negative ∨ d.coefficient = 0) :
    d.value = signed negative d.magnitude := by
  rcases h with rfl | hzero
  · rfl
  · have hmagnitude : d.magnitude = 0 := by rw [magnitude, hzero, Nat.cast_zero, zero_div]
    rw [value, hmagnitude, signed, signed, neg_zero, ite_self, ite_self]

theorem magnitude_eq_iff {q : ℚ} : d.magnitude = q ↔ q * 10 ^ d.scale = d.coefficient := by
  rw [magnitude, div_eq_iff (by positivity), eq_comm]

theorem Outcome.of_magnitude (hr : 0 ≤ r) (hpower : |power| ≤ 28) (hbase : r < 2 ^ 96 - 1 / 2)
    (hlt : r * 10 ^ power < 2 ^ 96 - 1 / 2) (hsign : d.negative = negative ∨ d.coefficient = 0)
    (hnear : |d.magnitude - r * 10 ^ power| ≤ 11 / 20 / 10 ^ d.scale)
    (hexact : d.magnitude = r * 10 ^ power ↔
      Fits (signed negative r) ∧ Fits (signed negative (r * 10 ^ power))) :
    Outcome (signed negative r) power (.ok d) := by
  have hnumber : 0 ≤ r * 10 ^ power := mul_nonneg hr (by positivity)
  refine .read ⟨hpower, ?_, ?_⟩ ?_ ?_
  · rwa [abs_signed hr]
  · rwa [signed_mul, abs_signed hnumber]
  · rwa [signed_mul, value_eq_signed hsign, abs_signed_sub]
  · rwa [signed_mul, value_eq_signed hsign, signed_inj]

theorem Outcome.of_beyond (hr : 0 ≤ r) (h : 2 ^ 96 - 1 / 2 ≤ r * 10 ^ power) (fault : Fault) :
    Outcome (signed negative r) power (.error fault) := by
  refine .refused (fun hrange => ?_) fault
  have hlt := hrange.lt
  rw [signed_mul, abs_signed (mul_nonneg hr (by positivity))] at hlt
  linarith

theorem Outcome.of_exponent {base : ℚ} (h : 28 < |power|) (fault : Fault) :
    Outcome base power (.error fault) :=
  .refused (fun hrange => absurd hrange.power_le (not_le.mpr h)) fault

private theorem abs_magnitude_sub_le {q x : ℚ} (h : |(d.coefficient : ℚ) - q * 10 ^ d.scale| ≤ x) :
    |d.magnitude - q| ≤ x / 10 ^ d.scale := by
  have hpow : (0 : ℚ) < 10 ^ d.scale := by positivity
  rwa [le_div_iff₀ hpow, ← abs_of_pos hpow, ← abs_mul, sub_mul, magnitude_mul_pow]

theorem Outcome.of_near (hr : 0 ≤ r) (hpower : |power| ≤ 28) (hbase : r < 2 ^ 96 - 1 / 2)
    (hsign : d.negative = negative ∨ d.coefficient = 0)
    (hnear : Near (r * 10 ^ power) d.coefficient d.scale)
    (hexact : r * 10 ^ power * 10 ^ d.scale = d.coefficient ↔ Fits (signed negative r)) :
    Outcome (signed negative r) power (.ok d) := by
  have hnumber : 0 ≤ r * 10 ^ power := mul_nonneg hr (by positivity)
  have hlt := hnear.lt hnumber d.coefficient_lt
  refine .of_magnitude hr hpower hbase hlt hsign ?_ ?_
  · refine abs_magnitude_sub_le (abs_le.mpr ?_)
    exact ⟨by linarith [hnear.high], by linarith [hnear.low]⟩
  · rw [magnitude_eq_iff]
    refine ⟨fun heq => ⟨hexact.mp heq, ?_⟩, fun hfits => hexact.mpr hfits.1⟩
    exact (fits_signed_iff hnumber).mpr ⟨_, _, d.coefficient_lt, d.scale_le, heq⟩

theorem Rounds.fits_iff (hr : 0 ≤ r) (h : Rounds r d.coefficient d.scale) :
    r * 10 ^ d.scale = d.coefficient ↔ Fits (signed negative r) :=
  h.exact_iff.trans (fits_signed_iff hr).symm

theorem outcome_plain (hr : 0 ≤ r) {result : Except Fault Decimal}
    (h : PlainReading negative r result) : Outcome (signed negative r) 0 result := by
  have hpower : r * 10 ^ (0 : ℤ) = r := by rw [zpow_zero, mul_one]
  cases h with
  | @kept d h hsign =>
      have hbase := h.toNear.lt hr h.coefficient_lt
      refine .of_near hr (by decide) hbase hsign (hpower.symm ▸ h.toNear) ?_
      rw [hpower]
      exact h.fits_iff hr
  | refused h fault => exact .of_beyond hr (hpower.symm ▸ h) fault

/-! ### Moving the point to the right

To the right nothing is lost.  The scale goes down, and when it is used up the coefficient
grows by powers of ten as long as it fits.
-/

section

variable (hr : 0 ≤ r) (h : Rounds r d.coefficient d.scale)
  (hsign : d.negative = negative ∨ d.coefficient = 0) {n : Nat}

include hr h hsign

/-- Within the scale only the scale changes, and what was near is as near at the new one. -/
theorem outcome_shiftUp_of_le (hn : n ≤ d.scale) :
    Outcome (signed negative r) n (d.shiftUp n) := by
  have hsame : r * 10 ^ (n : ℤ) * 10 ^ (d.scale - n) = r * 10 ^ d.scale := by
    rw [zpow_natCast, mul_assoc, ← pow_add, Nat.add_sub_cancel' hn]
  have hpower : |(n : ℤ)| ≤ 28 := by
    rw [Nat.abs_cast]
    exact_mod_cast Nat.le_trans hn h.scale_le
  have hnear : Near (r * 10 ^ (n : ℤ)) d.coefficient (d.scale - n) :=
    ⟨hsame ▸ h.low, hsame ▸ h.high⟩
  rw [shiftUp, if_pos hn]
  refine .of_near hr hpower (h.toNear.lt hr h.coefficient_lt) hsign hnear ?_
  dsimp only
  rw [hsame]
  exact h.fits_iff hr

/-- Past the scale the coefficient grows.  A base with a digit that had no room is too great for
that, so what is read is exact. -/
theorem outcome_shiftUp_of_lt (hn : d.scale < n) (hn' : n ≤ 28) :
    Outcome (signed negative r) n (d.shiftUp n) := by
  have hpower : |(n : ℤ)| ≤ 28 := by
    rw [Nat.abs_cast]
    exact_mod_cast hn'
  have hmoved (heq : r * 10 ^ d.scale = d.coefficient) :
      r * 10 ^ (n : ℤ) = (d.coefficient * 10 ^ (n - d.scale) : Nat) := by
    rw [zpow_natCast]
    exact mul_pow_eq_of_le heq (by omega)
  have hlarge : ¬ maxScale < n := Nat.not_lt.mpr hn'
  rw [shiftUp, if_neg (Nat.not_le.mpr hn), if_neg hlarge]
  by_cases hroom : d.coefficient * 10 ^ (n - d.scale) < 2 ^ 96
  · have hten : 10 * d.coefficient ≤ d.coefficient * 10 ^ (n - d.scale) := by
      rw [Nat.mul_comm]
      exact Nat.mul_le_mul_left _ (Nat.le_self_pow (by omega) 10)
    have hexact : r * 10 ^ d.scale = d.coefficient := by
      rcases h.full with heq | hlast | ⟨hfull, -⟩
      · exact heq
      · omega
      · omega
    have hwhole : r * 10 ^ (n : ℤ) * 10 ^ 0 = (d.coefficient * 10 ^ (n - d.scale) : Nat) := by
      rw [pow_zero, mul_one, hmoved hexact]
    have hsign' := hsign.imp_right fun hzero => mul_eq_zero_of_left hzero (10 ^ (n - d.scale))
    have hrounds := Rounds.of_eq hroom (Nat.zero_le 28) hwhole
    have hparts : ofParts? d.negative (d.coefficient * Nat.pow 10 (n - d.scale)) 0 =
        some ⟨d.negative, _, 0, hroom, Nat.zero_le 28⟩ := dif_pos ⟨hroom, Nat.zero_le 28⟩
    rw [hparts]
    refine .of_near hr hpower (h.toNear.lt hr h.coefficient_lt) hsign' hrounds.toNear ?_
    exact ⟨fun _ => (h.fits_iff hr).mp hexact, fun _ => hwhole⟩
  · have hparts : ofParts? d.negative (d.coefficient * Nat.pow 10 (n - d.scale)) 0 = none :=
      dif_neg fun hfits => hroom hfits.1
    rw [hparts]
    refine .of_beyond hr ?_ _
    rcases h.full with hexact | hlast | ⟨-, hfull⟩
    · have hle : (2 ^ 96 : ℚ) ≤ (d.coefficient * 10 ^ (n - d.scale) : Nat) := by
        exact_mod_cast Nat.le_of_not_lt hroom
      rw [hmoved hexact]
      linarith
    · omega
    · refine hfull.trans (mul_le_mul_of_nonneg_left ?_ hr)
      rw [zpow_natCast]
      exact pow_le_pow_right₀ (by norm_num) (by omega)

theorem outcome_shiftUp (n : Nat) : Outcome (signed negative r) n (d.shiftUp n) := by
  have hscale : d.scale ≤ 28 := d.scale_le
  by_cases hn : n ≤ d.scale
  · exact outcome_shiftUp_of_le hr h hsign hn
  · by_cases hn' : n ≤ 28
    · exact outcome_shiftUp_of_lt hr h hsign (Nat.lt_of_not_le hn) hn'
    · have hrefused : d.shiftUp n = .error (.exponentTooLarge n) := by
        rw [shiftUp, if_neg hn, if_pos (show maxScale < n from Nat.lt_of_not_le hn')]
      rw [hrefused]
      refine .of_exponent ?_ _
      rw [Nat.abs_cast]
      exact_mod_cast Nat.lt_of_not_le hn'

end

/-! ### Moving the point to the left

To the left the scale goes up to the last place, and digits past it are rounded away.  If the
base was rounded before, the two roundings add up, but the second one leaves of the first at
most a tenth.
-/

/-- `moved` is `d`, moved to the left by `n` places.  The digits past the last place, as many as
the `surplus`, are rounded away. -/
structure Lowered (d moved : Decimal) (n surplus : Nat) : Prop where
  negative_eq : moved.negative = d.negative
  scale_eq : moved.scale + surplus = d.scale + n
  coefficient_eq : moved.coefficient = (d.coefficient + 10 ^ surplus / 2) / 10 ^ surplus
  last : surplus = 0 ∨ moved.scale = 28

private theorem exists_lowered (d : Decimal) {n : Nat} (hn : n ≤ 28) :
    ∃ moved surplus, d.shiftDown n = .ok moved ∧ Lowered d moved n surplus := by
  have hscale : d.scale + n - (d.scale + n - 28) ≤ 28 := by omega
  have hroom : (d.coefficient + 10 ^ (d.scale + n - 28) / 2) / 10 ^ (d.scale + n - 28) <
      1 <<< 96 := by
    have hlt : d.coefficient < 2 ^ 96 := d.coefficient_lt
    have hunit : 0 < 10 ^ (d.scale + n - 28) := by positivity
    refine Nat.div_lt_of_lt_mul ?_
    show _ < 10 ^ (d.scale + n - 28) * 2 ^ 96
    omega
  refine ⟨⟨d.negative, _, _, hroom, hscale⟩, d.scale + n - 28, ?_, rfl, ?_, rfl, ?_⟩
  · have hparts : ofParts? d.negative
        ((d.coefficient + Nat.pow 10 (d.scale + n - maxScale) / 2) /
          Nat.pow 10 (d.scale + n - maxScale)) (d.scale + n - (d.scale + n - maxScale)) =
        some ⟨d.negative, _, _, hroom, hscale⟩ := dif_pos ⟨hroom, hscale⟩
    have hlarge : ¬ maxScale < n := Nat.not_lt.mpr hn
    simp only [shiftDown, if_neg hlarge, hparts]
  · show d.scale + n - (d.scale + n - 28) + (d.scale + n - 28) = d.scale + n
    omega
  · show d.scale + n - 28 = 0 ∨ d.scale + n - (d.scale + n - 28) = 28
    omega

private theorem round_bounds {c c' surplus : Nat} (h : c' = (c + 10 ^ surplus / 2) / 10 ^ surplus) :
    surplus = 0 ∧ c' = c ∨ 0 < surplus ∧
      2 * (10 ^ surplus * c') ≤ 2 * c + 10 ^ surplus ∧
        2 * c + 10 ^ surplus < 2 * (10 ^ surplus * c') + 2 * 10 ^ surplus := by
  rcases Nat.eq_zero_or_pos surplus with rfl | hpos
  · left
    rw [h]
    simp
  · right
    obtain ⟨k, rfl⟩ : ∃ k, surplus = k + 1 := ⟨surplus - 1, by omega⟩
    have hunit : 0 < 10 ^ (k + 1) := by positivity
    have heven : 10 ^ (k + 1) = 2 * (10 ^ (k + 1) / 2) := by
      rw [Nat.pow_succ]
      omega
    have hlow := Nat.div_mul_le_self (c + 10 ^ (k + 1) / 2) (10 ^ (k + 1))
    have hhigh := Nat.lt_div_mul_add hunit (a := c + 10 ^ (k + 1) / 2)
    rw [← h, Nat.mul_comm] at hlow hhigh
    refine ⟨hpos, ?_, ?_⟩ <;> omega

/-- A coefficient that was rounded before is off by a twentieth more at most. -/
theorem abs_sub_round_le {x : ℚ} {c c' surplus : Nat} (hlow : (c : ℚ) - 1 / 2 ≤ x * 10 ^ surplus)
    (hhigh : x * 10 ^ surplus < c + 1 / 2) (h : c' = (c + 10 ^ surplus / 2) / 10 ^ surplus) :
    |(c' : ℚ) - x| ≤ 11 / 20 := by
  rw [abs_le]
  rcases round_bounds h with ⟨rfl, rfl⟩ | ⟨hpos, hround, hround'⟩
  · rw [pow_zero, mul_one] at hlow hhigh
    exact ⟨by linarith, by linarith⟩
  · have hunit : (10 : ℚ) ≤ 10 ^ surplus := le_self_pow₀ (by norm_num) (by omega)
    have hunit' : (0 : ℚ) < 10 ^ surplus := by positivity
    rw [← Nat.cast_le (α := ℚ)] at hround
    rw [← Nat.cast_lt (α := ℚ)] at hround'
    push_cast at hround hround'
    generalize (10 : ℚ) ^ surplus = unit at *
    constructor
    · refine le_of_mul_le_mul_left ?_ hunit'
      linarith
    · refine le_of_mul_le_mul_left ?_ hunit'
      linarith

private theorem round_mul {m c' surplus : Nat}
    (h : c' = (m * 10 ^ surplus + 10 ^ surplus / 2) / 10 ^ surplus) : c' = m := by
  have hunit : 0 < 10 ^ surplus := by positivity
  rw [h, Nat.mul_comm, Nat.mul_add_div hunit, Nat.div_eq_of_lt (Nat.div_lt_self hunit (by decide)),
    Nat.add_zero]

private theorem mul_zpow_neg_mul_pow {n s s' surplus : Nat} (hscale : s' + surplus = s + n) :
    r * 10 ^ (-(n : ℤ)) * 10 ^ s' * 10 ^ surplus = r * 10 ^ s := by
  have hpow : (10 : ℚ) ^ s' * 10 ^ surplus = 10 ^ s * 10 ^ n := by rw [← pow_add, hscale, pow_add]
  have hne : (10 : ℚ) ^ n ≠ 0 := by positivity
  rw [zpow_neg, zpow_natCast, mul_assoc, hpow]
  field_simp

/-- A number that fits still does when it is multiplied by a power of ten, unless that makes it
too great. -/
theorem fits_of_mul (hr : 0 ≤ r) (hbase : r < 2 ^ 96 - 1 / 2) {n : Nat}
    (h : Fits (signed negative (r * 10 ^ (-(n : ℤ))))) : Fits (signed negative r) := by
  have hnumber : 0 ≤ r * 10 ^ (-(n : ℤ)) := mul_nonneg hr (by positivity)
  obtain ⟨c, s, hc, hs, heq⟩ := (fits_signed_iff hnumber).mp h
  rw [fits_signed_iff hr]
  rcases Nat.le_total n s with hle | hle
  · have hmoved := @mul_zpow_neg_mul_pow r n (s - n) s 0 (by omega)
    refine ⟨c, s - n, hc, by omega, ?_⟩
    rw [← hmoved, heq, pow_zero, mul_one]
  · have hwhole : r * 10 ^ 0 = (c * 10 ^ (n - s) : Nat) := by
      push_cast
      rw [← heq]
      exact (mul_zpow_neg_mul_pow (by omega)).symm
    refine ⟨_, 0, ?_, Nat.zero_le _, hwhole⟩
    rw [pow_zero, mul_one] at hwhole
    rw [hwhole] at hbase
    have hlt : ((c * 10 ^ (n - s) : Nat) : ℚ) < (2 ^ 96 : Nat) := by
      refine hbase.trans ?_
      norm_num
    exact_mod_cast hlt

section

variable {moved : Decimal} {n surplus : Nat} (hmoved : Lowered d moved n surplus)

include hmoved

theorem Lowered.sign (hsign : d.negative = negative ∨ d.coefficient = 0) :
    moved.negative = negative ∨ moved.coefficient = 0 := by
  refine hsign.imp hmoved.negative_eq.trans fun hzero => ?_
  have hcoefficient := hmoved.coefficient_eq
  rw [hzero, ← Nat.zero_mul (10 ^ surplus)] at hcoefficient
  exact round_mul hcoefficient

/-- The result of the second rounding is near to the number before the first one. -/
theorem Lowered.abs_sub_le (h : Rounds r d.coefficient d.scale) :
    |moved.magnitude - r * 10 ^ (-(n : ℤ))| ≤ 11 / 20 / 10 ^ moved.scale := by
  have hscaled := mul_zpow_neg_mul_pow (r := r) hmoved.scale_eq
  refine abs_magnitude_sub_le (abs_sub_round_le ?_ ?_ hmoved.coefficient_eq)
  · rw [hscaled]
    exact h.low
  · rw [hscaled]
    exact h.high

/-- A number that fits is whole at the last place, and so no digit of it is rounded away. -/
theorem Lowered.exact_iff (hr : 0 ≤ r) (h : Rounds r d.coefficient d.scale)
    (hsign : d.negative = negative ∨ d.coefficient = 0) :
    moved.magnitude = r * 10 ^ (-(n : ℤ)) ↔
      Fits (signed negative r) ∧ Fits (signed negative (r * 10 ^ (-(n : ℤ)))) := by
  constructor
  · intro hexact
    have hnumber : Fits (signed negative (r * 10 ^ (-(n : ℤ)))) :=
      ⟨moved, by rw [value_eq_signed (hmoved.sign hsign), hexact]⟩
    exact ⟨fits_of_mul hr (h.toNear.lt hr h.coefficient_lt) hnumber, hnumber⟩
  · rintro ⟨hbase, hnumber⟩
    have hscaled := mul_zpow_neg_mul_pow (r := r) hmoved.scale_eq
    rw [(h.fits_iff hr).mpr hbase] at hscaled
    rw [fits_signed_iff (mul_nonneg hr (by positivity))] at hnumber
    obtain ⟨c, s, -, hs, hc⟩ := hnumber
    obtain ⟨m, hm⟩ : ∃ m : Nat, r * 10 ^ (-(n : ℤ)) * 10 ^ moved.scale = m := by
      rcases hmoved.last with rfl | hlast
      · exact ⟨d.coefficient, by rw [← hscaled, pow_zero, mul_one]⟩
      · exact ⟨_, mul_pow_eq_of_le hc (by omega)⟩
    rw [hm] at hscaled
    have hwhole : d.coefficient = m * 10 ^ surplus := by exact_mod_cast hscaled.symm
    have hcoefficient := hmoved.coefficient_eq
    rw [hwhole] at hcoefficient
    rw [magnitude_eq_iff, hm, round_mul hcoefficient]

end

theorem outcome_shiftDown (hr : 0 ≤ r) (h : Rounds r d.coefficient d.scale)
    (hsign : d.negative = negative ∨ d.coefficient = 0) (n : Nat) :
    Outcome (signed negative r) (-n) (d.shiftDown n) := by
  have hpower : |(-n : ℤ)| = n := by rw [abs_neg, Nat.abs_cast]
  by_cases hn : n ≤ 28
  · obtain ⟨moved, surplus, heq, hmoved⟩ := d.exists_lowered hn
    have hbase := h.toNear.lt hr h.coefficient_lt
    have hlt : r * 10 ^ (-(n : ℤ)) < 2 ^ 96 - 1 / 2 := by
      refine lt_of_le_of_lt (mul_le_of_le_one_right hr ?_) hbase
      rw [zpow_neg, zpow_natCast]
      exact inv_le_one_of_one_le₀ (one_le_pow₀ (by norm_num))
    rw [heq]
    refine .of_magnitude hr ?_ hbase hlt (hmoved.sign hsign) (hmoved.abs_sub_le h)
      (hmoved.exact_iff hr h hsign)
    rw [hpower]
    exact_mod_cast hn
  · have hrefused : d.shiftDown n = .error (.exponentTooLarge n) :=
      if_pos (show maxScale < n from Nat.lt_of_not_le hn)
    rw [hrefused]
    refine .of_exponent ?_ _
    rw [hpower]
    exact_mod_cast Nat.lt_of_not_le hn

/-! ### Whole numerals

The mark of an exponent is told from everything before it, since no digit, point or sign is
such a mark.
-/

/-- What is written for an exponent; there may be none. -/
inductive ExponentText : ℤ → List Char → Prop
  | none : ExponentText 0 []
  | power {mark : Char} (hmark : mark = 'e' ∨ mark = 'E') {negative : Bool} {sign : List Char}
      (hsign : SignText negative sign) {ds : List Char} (h : IsDigits ds) :
      ExponentText (if negative then -(Text.numeral ds : ℤ) else Text.numeral ds)
        (mark :: (sign ++ ds))

/-- What is written for the number `base * 10 ^ power`. -/
inductive NumeralText : ℚ → ℤ → List Char → Prop
  | mk {negative : Bool} {sign : List Char} (hsign : SignText negative sign) {n k : Nat}
      {digits : List Char} (hdigits : DigitsText n k digits) {power : ℤ} {exponent : List Char}
      (hexponent : ExponentText power exponent) :
      NumeralText (signed negative (n / 10 ^ k)) power (sign ++ (digits ++ exponent))

/-- What a character may be that neither stands for a digit nor stands between digits. -/
structure IsStray (c : Char) : Prop where
  not_digit : c.isDigit = false
  not_point : c ≠ '.'
  not_separator : c ≠ '_'

theorem IsStray.mark {mark : Char} (h : mark = 'e' ∨ mark = 'E') : IsStray mark := by
  rcases h with rfl | rfl <;> exact ⟨by decide, by decide, by decide⟩

private theorem roundOff_of_stray {p : Progress} {d : Nat} {c : Char} (hc : IsStray c)
    {s : List Char}
    (h : c ∈ s) : ∃ fault, roundOff p d s = .error fault := by
  have hfind : (s.find? fun c => !(c.isDigit || c == '_')) ≠ none := by
    rw [Ne, List.find?_eq_none]
    intro hall
    exact hall c h (by simp [hc.not_digit, hc.not_separator])
  obtain ⟨c', hc'⟩ := Option.ne_none_iff_exists'.mp hfind
  rw [roundOff, hc']
  dsimp only
  split <;> exact ⟨_, rfl⟩

/-- No digits are read from a text with a character that cannot stand among them. -/
theorem readDigits_of_stray {c : Char} (hc : IsStray c) {s : List Char} (h : c ∈ s)
    (p : Progress) : ∃ fault, readDigits p s = .error fault := by
  induction s generalizing p with
  | nil => cases h
  | cons x s ih =>
      rcases List.mem_cons.mp h with rfl | h
      · refine ⟨faultOf c, ?_⟩
        rw [readDigits, if_neg (by rw [hc.not_digit]; decide)]
        simp [hc.not_separator, hc.not_point]
      · rw [readDigits]
        dsimp only
        -- each branch reads on, rounds by what is behind or refuses the character at hand
        repeat' split
        all_goals first
          | exact ih h _
          | exact roundOff_of_stray hc h
          | exact ⟨_, rfl⟩

private theorem readExponent_digits {ds : List Char} (h : IsDigits ds) {s : List Char}
    (hs : s = ds ∨ s = '+' :: ds) :
    readExponent s = if Text.numeral ds < 1 <<< 32 then some (Text.numeral ds) else none := by
  obtain ⟨d, ds, rfl, hd⟩ := h.exists_cons
  have hall : (d :: ds).all Char.isDigit = true := List.all_eq_true.mpr h.all
  rcases hs with rfl | rfl
  · unfold readExponent
    split
    · rename_i heq
      cases heq
      exact absurd hd (by decide)
    · simp only [List.isEmpty_cons, hall, Bool.not_true, Bool.or_self, Bool.false_eq_true, if_false]
  · simp only [readExponent, List.isEmpty_cons, hall, Bool.not_true, Bool.or_self,
      Bool.false_eq_true, if_false]

/-- Digits for a number that no exponent can have are no exponent. -/
theorem match_readExponent {ds : List Char} (h : IsDigits ds) {s : List Char}
    (hs : s = ds ∨ s = '+' :: ds) (move : Nat → Except Fault Decimal) :
    (match readExponent s with
      | some n => move n
      | none => .error .malformed) =
      if Text.numeral ds < 1 <<< 32 then move (Text.numeral ds) else .error .malformed := by
  rw [readExponent_digits h hs]
  by_cases hsize : Text.numeral ds < 1 <<< 32
  · rw [if_pos hsize, if_pos hsize]
  · rw [if_neg hsize, if_neg hsize]

/-- Whether a character begins an exponent. -/
def isMark (c : Char) : Bool :=
  c == 'e' || c == 'E'

/-- What stands before the mark is read without an exponent, then comes the exponent. -/
theorem readScientific_eq {base : List Char} (hbase : ∀ c ∈ base, isMark c = false) {mark : Char}
    (hmark : mark = 'e' ∨ mark = 'E') {negative : Bool} {sign : List Char}
    (hsign : SignText negative sign) {ds : List Char} (h : IsDigits ds) :
    readScientific (base ++ mark :: (sign ++ ds)) =
      match readPlain base with
      | .error fault => .error fault
      | .ok d =>
        if Text.numeral ds < 1 <<< 32 then
          if negative then d.shiftDown (Text.numeral ds) else d.shiftUp (Text.numeral ds)
        else .error .malformed := by
  have hmark' : isMark mark = true := by rcases hmark with rfl | rfl <;> rfl
  have hbefore : (base ++ mark :: (sign ++ ds)).takeWhile (fun c => !isMark c) = base := by
    rw [List.takeWhile_append_of_pos (by simpa using hbase),
      List.takeWhile_cons_of_neg (by simp [hmark']), List.append_nil]
  have hafter : (base ++ mark :: (sign ++ ds)).dropWhile (fun c => !isMark c) =
      mark :: (sign ++ ds) := by
    rw [List.dropWhile_append_of_pos (by simpa using hbase),
      List.dropWhile_cons_of_neg (by simp [hmark'])]
  unfold isMark at hbefore hafter
  rw [readScientific]
  dsimp only
  rw [hbefore, hafter]
  cases readPlain base with
  | error fault => rfl
  | ok d =>
      dsimp only
      cases hsign with
      | none =>
          obtain ⟨c, cs, rfl, hc⟩ := h.exists_cons
          rw [List.nil_append]
          split
          · rename_i heq
            cases heq
            exact absurd hc (by decide)
          · exact match_readExponent h (.inl rfl) d.shiftUp
      | plus => exact match_readExponent h (.inr rfl) d.shiftUp
      | minus => exact match_readExponent h (.inl rfl) d.shiftDown

theorem readScientific_of_unmarked {s : List Char} (h : ∀ c ∈ s, isMark c = false) :
    readScientific s = .error .malformed := by
  have hafter : (s ++ []).dropWhile (fun c => !isMark c) = [] :=
    List.dropWhile_append_of_pos (by simpa using h)
  rw [List.append_nil] at hafter
  unfold isMark at hafter
  rw [readScientific]
  dsimp only
  rw [hafter]

private theorem isMark_of_mem {negative : Bool} {sign : List Char} (hsign : SignText negative sign)
    {n k : Nat} {digits : List Char} (hdigits : DigitsText n k digits) :
    ∀ c ∈ sign ++ digits, isMark c = false := by
  have hdigit {c : Char} (h : c.isDigit = true) : isMark c = false := by
    rw [isMark, Bool.or_eq_false_iff, beq_eq_false_iff_ne, beq_eq_false_iff_ne]
    constructor <;> rintro rfl <;> exact absurd h (by decide)
  intro c hc
  rcases List.mem_append.mp hc with hc | hc
  · rcases hsign.eq_of_mem hc with rfl | rfl <;> rfl
  · rcases hdigits.eq_of_mem hc with rfl | hc
    · rfl
    · exact hdigit hc

/-- What stands before an exponent is no numeral together with it. -/
theorem readPlain_of_stray {negative : Bool} {sign : List Char} (hsign : SignText negative sign)
    {n k : Nat} {digits : List Char} (hdigits : DigitsText n k digits) {c : Char} (hc : IsStray c)
    {rest : List Char} (h : c ∈ rest) :
    ∃ fault, readPlain (sign ++ (digits ++ rest)) = .error fault := by
  obtain ⟨fault, hfault⟩ := readDigits_of_stray hc (List.mem_append_right digits h)
    ⟨0, 0, false, false⟩
  exact ⟨fault, readPlain_eq_error hsign hdigits hfault⟩

theorem outcome_read {base : ℚ} {power : ℤ} {s : List Char} (h : NumeralText base power s) :
    Outcome base power (read s) := by
  obtain ⟨hsign, hdigits, hexponent⟩ := h
  rename_i negative sign n k digits exponent
  have hr : (0 : ℚ) ≤ n / 10 ^ k := by positivity
  have hplain := plainReading hsign hdigits
  have hunmarked := isMark_of_mem hsign hdigits
  cases hexponent with
  | none =>
      rw [List.append_nil, read]
      have houtcome := outcome_plain hr hplain
      cases hread : readPlain (sign ++ digits) with
      | ok d =>
          rw [hread] at houtcome
          exact houtcome
      | error fault =>
          rw [hread] at houtcome
          rw [readScientific_of_unmarked hunmarked]
          cases houtcome with
          | refused h => exact .refused h _
  | @power mark hmark negative' sign' hsign' ds hds =>
      obtain ⟨fault, hfault⟩ :=
        readPlain_of_stray hsign hdigits (.mark hmark) (List.mem_cons_self (l := sign' ++ ds))
      rw [read, hfault]
      dsimp only
      rw [← List.append_assoc, readScientific_eq hunmarked hmark hsign' hds]
      generalize readPlain (sign ++ digits) = result at hplain
      cases hplain with
      | refused h fault =>
          refine .refused (fun hrange => ?_) fault
          have hlt := hrange.base_lt
          rw [abs_signed hr] at hlt
          exact absurd hlt (not_lt.mpr h)
      | @kept d h hsign =>
          dsimp only
          by_cases hsize : Text.numeral ds < 1 <<< 32
          · rw [if_pos hsize]
            cases negative' with
            | false => exact outcome_shiftUp hr h hsign _
            | true => exact outcome_shiftDown hr h hsign _
          · rw [if_neg hsize]
            have hlarge : (28 : ℤ) < Text.numeral ds := by omega
            refine .of_exponent ?_ _
            cases negative' with
            | false => exact hlarge.trans_le (le_abs_self _)
            | true =>
                rw [if_pos rfl, abs_neg]
                exact hlarge.trans_le (le_abs_self _)

end Decimal

end FilterSelect
