/-
What rounding to a double does to a ratio.

A double is rounded to in one step: the ratio is scaled by a power of two such that its
whole part has 53 binary digits, and that part is rounded.  So the result stands to the
ratio as a rounded whole number stands to what it was rounded from, and two facts about
whole numbers carry over.  If the ratio lies above a number that a double can be, then so
does the result, and likewise below (`le_magnitude`, `magnitude_le`).

Both hold for numbers `m · 2^j` with a coefficient of at most 53 binary digits.  Where such
a number is finer than the last place of the result, the result is so much greater that
nothing has to be rounded at all.
-/
import FilterSelect.Number.Binary64
import Mathlib.Algebra.Order.Field.Power
import Mathlib.Algebra.Order.Field.Rat
import Mathlib.Tactic.FieldSimp
import Mathlib.Tactic.Linarith
import Mathlib.Tactic.NormNum
import Mathlib.Tactic.Positivity
import Mathlib.Tactic.Ring

namespace FilterSelect

/-! ### Rounding to a whole number -/

/-- What lies above a whole number is not rounded below it. -/
theorem le_divToEven {num den m : Nat} (hden : 0 < den) (h : m * den ≤ num) :
    m ≤ divToEven num den := by
  have hfloor : m ≤ num / den := (Nat.le_div_iff_mul_le hden).mpr h
  unfold divToEven
  dsimp only
  split
  · omega
  · split <;> omega

/-- What lies below a whole number is not rounded above it. -/
theorem divToEven_le {num den m : Nat} (hden : 0 < den) (h : num ≤ m * den) :
    divToEven num den ≤ m := by
  unfold divToEven
  dsimp only
  by_cases hexact : num % den = 0
  · have hfloor : num / den ≤ m := Nat.div_le_of_le_mul (by rw [Nat.mul_comm]; exact h)
    rw [hexact, Nat.mul_zero, if_pos hden]
    exact hfloor
  · have hne : num ≠ m * den := by
      rintro rfl
      exact hexact (Nat.mul_mod_left m den)
    have hfloor : num / den < m := (Nat.div_lt_iff_lt_mul hden).mpr (by omega)
    split
    · omega
    · split <;> omega

namespace Binary64

/-! ### The number that a double is -/

/-- The magnitude of a double. -/
def magnitude (x : Binary64) : ℚ :=
  x.significand * 2 ^ x.exponent

/-- The number that a double is, with its sign. -/
def value (x : Binary64) : ℚ :=
  if x.negative then -x.magnitude else x.magnitude

theorem two_zpow_pos (k : ℤ) : (0 : ℚ) < 2 ^ k :=
  zpow_pos (by norm_num) k

theorem pow_toNat {a : ℚ} (ha : a ≠ 0) (k : ℤ) : a ^ k.toNat = a ^ k * a ^ (-k).toNat := by
  rcases Int.le_total 0 k with h | h
  · obtain ⟨n, rfl⟩ := Int.eq_ofNat_of_zero_le h
    simp
  · obtain ⟨n, hn⟩ := Int.eq_ofNat_of_zero_le (Int.neg_nonneg_of_nonpos h)
    obtain rfl : k = -(n : ℤ) := by omega
    simp [ha]

private theorem two_pow_toNat (k : ℤ) : (2 : ℚ) ^ k.toNat = 2 ^ k * 2 ^ (-k).toNat :=
  pow_toNat (by norm_num) k

theorem numerator_div_denominator (x : Binary64) :
    (x.numerator : ℚ) / x.denominator = x.magnitude := by
  have hpos : (0 : ℚ) < 2 ^ (-x.exponent).toNat := by positivity
  rw [magnitude, numerator, denominator, Nat.shiftLeft_eq, Nat.shiftLeft_eq, Nat.one_mul]
  push_cast
  rw [two_pow_toNat, div_eq_iff hpos.ne', mul_assoc]

theorem denominator_pos (x : Binary64) : 0 < x.denominator := by
  rw [denominator, Nat.shiftLeft_eq]
  positivity

/-! ### Scaling by a power of two

A negative exponent scales the numerator and a positive one the denominator, so a ratio is
compared in whole numbers whichever way it is scaled.
-/

variable {num den m : Nat} {e : ℤ}

/-- Comparing a ratio with a multiple of a power of two is comparing whole numbers. -/
theorem mul_shift_le_iff (hden : 0 < den) :
    m * (den <<< e.toNat) ≤ num <<< (-e).toNat ↔ (m : ℚ) * 2 ^ e ≤ num / den := by
  have hden' : (0 : ℚ) < den := by exact_mod_cast hden
  have hpos : (0 : ℚ) < 2 ^ (-e).toNat := by positivity
  rw [Nat.shiftLeft_eq, Nat.shiftLeft_eq, le_div_iff₀ hden', ← Nat.cast_le (α := ℚ)]
  push_cast
  rw [two_pow_toNat e, show (m : ℚ) * (den * (2 ^ e * 2 ^ (-e).toNat)) =
    m * 2 ^ e * den * 2 ^ (-e).toNat by ring]
  exact mul_le_mul_iff_left₀ hpos

private theorem le_mul_shift_iff (hden : 0 < den) :
    num <<< (-e).toNat ≤ m * (den <<< e.toNat) ↔ (num : ℚ) / den ≤ m * 2 ^ e := by
  have hden' : (0 : ℚ) < den := by exact_mod_cast hden
  have hpos : (0 : ℚ) < 2 ^ (-e).toNat := by positivity
  rw [Nat.shiftLeft_eq, Nat.shiftLeft_eq, div_le_iff₀ hden', ← Nat.cast_le (α := ℚ)]
  push_cast
  rw [two_pow_toNat e, show (m : ℚ) * (den * (2 ^ e * 2 ^ (-e).toNat)) =
    m * 2 ^ e * den * 2 ^ (-e).toNat by ring]
  exact mul_le_mul_iff_left₀ hpos

private theorem log2_bounds {n : Nat} (h : 0 < n) :
    (2 : ℚ) ^ (n.log2 : ℤ) ≤ n ∧ (n : ℚ) < 2 ^ ((n.log2 : ℤ) + 1) := by
  have hlow : 2 ^ n.log2 ≤ n := Nat.log2_self_le (by omega)
  have hhigh : n < 2 ^ (n.log2 + 1) := Nat.lt_log2_self
  exact ⟨by exact_mod_cast hlow, by exact_mod_cast hhigh⟩

/-- `floorLog2` is the exponent of the power of two below a ratio. -/
theorem floorLog2_spec (hnum : 0 < num) (hden : 0 < den) :
    (2 : ℚ) ^ floorLog2 num den ≤ num / den ∧ (num : ℚ) / den < 2 ^ (floorLog2 num den + 1) := by
  have hden' : (0 : ℚ) < den := by exact_mod_cast hden
  obtain ⟨hnumlow, hnumhigh⟩ := log2_bounds hnum
  obtain ⟨hdenlow, hdenhigh⟩ := log2_bounds hden
  -- the quotient of the powers is at most one power away
  have hlow : (2 : ℚ) ^ ((num.log2 : ℤ) - den.log2 - 1) ≤ num / den := by
    rw [le_div_iff₀ hden']
    calc (2 : ℚ) ^ ((num.log2 : ℤ) - den.log2 - 1) * den
        ≤ 2 ^ ((num.log2 : ℤ) - den.log2 - 1) * 2 ^ ((den.log2 : ℤ) + 1) := by gcongr
      _ = 2 ^ (num.log2 : ℤ) := by
        rw [← zpow_add₀ (by norm_num : (2 : ℚ) ≠ 0)]
        congr 1
        omega
      _ ≤ num := hnumlow
  have hhigh : (num : ℚ) / den < 2 ^ ((num.log2 : ℤ) - den.log2 + 1) := by
    rw [div_lt_iff₀ hden']
    calc (num : ℚ) < 2 ^ ((num.log2 : ℤ) + 1) := hnumhigh
      _ = 2 ^ ((num.log2 : ℤ) - den.log2 + 1) * 2 ^ (den.log2 : ℤ) := by
        rw [← zpow_add₀ (by norm_num : (2 : ℚ) ≠ 0)]
        congr 1
        omega
      _ ≤ 2 ^ ((num.log2 : ℤ) - den.log2 + 1) * den := by gcongr
  have htest := @mul_shift_le_iff num den 1 ((num.log2 : ℤ) - den.log2) hden
  unfold floorLog2
  dsimp only
  split
  · rename_i hle
    rw [← Nat.one_mul (den <<< _), htest, Nat.cast_one, one_mul] at hle
    exact ⟨hle, hhigh⟩
  · rename_i hlt
    rw [← Nat.one_mul (den <<< _), htest, Nat.cast_one, one_mul, not_le] at hlt
    rw [sub_add_cancel]
    exact ⟨hlow, hlt⟩

/-! ### Rounding a ratio

In units of the last place a ratio is rounded to a whole number.  A double that lies on one
side of the ratio is a whole number of such units or lies below all of them, so rounding does
not pass it.
-/

theorem magnitude_of_small {x : Binary64} (h : x.rank < 2 ^ 52) :
    x.magnitude = x.rank * 2 ^ (-1074 : ℤ) := by
  have hsmall : x.rank < 1 <<< 52 := by
    rw [Nat.shiftLeft_eq]
    omega
  rw [magnitude, significand, exponent, if_pos hsmall, if_pos hsmall]

/-- A rank past the subnormal ones is a significand and the number of binades below it. -/
theorem magnitude_of_normal {x : Binary64} {q k : Nat} (hrank : x.rank = q + k * 2 ^ 52)
    (hlow : 2 ^ 52 ≤ q) (hhigh : q < 2 ^ 53) : x.magnitude = q * 2 ^ ((k : ℤ) - 1074) := by
  have hlarge : ¬ x.rank < 1 <<< 52 := by
    rw [Nat.shiftLeft_eq]
    omega
  have hsignificand : x.significand = q := by
    rw [significand, if_neg hlarge, hrank, Nat.shiftLeft_eq]
    omega
  have hexponent : x.exponent = (k : ℤ) - 1074 := by
    rw [exponent, if_neg hlarge, hrank, Nat.shiftRight_eq_div_pow]
    omega
  rw [magnitude, hsignificand, hexponent]

theorem magnitude_of_rank {x : Binary64} {q : Nat} (he : -1074 ≤ e)
    (hrank : x.rank = q + ((e + 1074).toNat <<< 52)) (hq : q ≤ 2 ^ 53)
    (hnormal : e = -1074 ∨ 2 ^ 52 ≤ q) : x.magnitude = q * 2 ^ e := by
  obtain ⟨k, hk⟩ := Int.eq_ofNat_of_zero_le (show 0 ≤ e + 1074 by omega)
  have hrank' : x.rank = q + k * 2 ^ 52 := by rw [hrank, hk, Int.toNat_natCast, Nat.shiftLeft_eq]
  obtain rfl : e = (k : ℤ) - 1074 := by omega
  rcases Nat.lt_or_ge q (2 ^ 52) with hsmall | hlarge
  · obtain rfl : k = 0 := by omega
    have hrank'' : x.rank = q := by omega
    rw [magnitude_of_small (by omega), hrank'']
    norm_num
  · rcases Nat.lt_or_ge q (2 ^ 53) with hfits | hcarry
    · exact magnitude_of_normal hrank' hlarge hfits
    · obtain rfl : q = 2 ^ 53 := by omega
      have hnext : x.rank = 2 ^ 52 + (k + 1) * 2 ^ 52 := by omega
      rw [magnitude_of_normal hnext (Nat.le_refl _) (by omega),
        show ((k + 1 : Nat) : ℤ) - 1074 = 1 + ((k : ℤ) - 1074) by push_cast; ring,
        zpow_add₀ (by norm_num : (2 : ℚ) ≠ 0)]
      push_cast
      ring

/-- The exponent of the last place of the double that a ratio is rounded to. -/
def place (num den : Nat) : ℤ :=
  max (floorLog2 num den - 52) (-1074)

/-- The ratio in units of the last place, rounded. -/
def rounded (num den : Nat) : Nat :=
  divToEven (num <<< (-place num den).toNat) (den <<< (place num den).toNat)

private theorem shiftLeft_pos (hden : 0 < den) (k : Nat) : 0 < den <<< k := by
  rw [Nat.shiftLeft_eq]
  positivity

theorem le_place (num den : Nat) : -1074 ≤ place num den :=
  le_max_right _ _

/-- A ratio whose last place is not the smallest one has all digits. -/
theorem place_eq_or (hnum : 0 < num) (hden : 0 < den) :
    place num den = -1074 ∨ (2 : ℚ) ^ (place num den + 52) ≤ num / den := by
  unfold place
  rcases Int.le_total (floorLog2 num den - 52) (-1074) with hle | hle
  · exact .inl (max_eq_right hle)
  · right
    rw [max_eq_left hle, sub_add_cancel]
    exact (floorLog2_spec hnum hden).1

theorem div_lt_place (hnum : 0 < num) (hden : 0 < den) :
    (num : ℚ) / den < 2 ^ (place num den + 53) := by
  refine lt_of_lt_of_le (floorLog2_spec hnum hden).2 (zpow_le_zpow_right₀ (by norm_num) ?_)
  have hle : floorLog2 num den - 52 ≤ place num den := le_max_left _ _
  omega

theorem le_rounded (hden : 0 < den) (h : (m : ℚ) * 2 ^ place num den ≤ num / den) :
    m ≤ rounded num den :=
  le_divToEven (shiftLeft_pos hden _) ((mul_shift_le_iff hden).mpr h)

theorem rounded_le (hden : 0 < den) (h : (num : ℚ) / den ≤ m * 2 ^ place num den) :
    rounded num den ≤ m :=
  divToEven_le (shiftLeft_pos hden _) ((le_mul_shift_iff hden).mpr h)

private theorem two_pow_mul_zpow (k : Nat) (e : ℤ) : ((2 ^ k : Nat) : ℚ) * 2 ^ e = 2 ^ (e + k) := by
  rw [Int.add_comm, zpow_add₀ (by norm_num : (2 : ℚ) ≠ 0), zpow_natCast]
  push_cast
  rfl

theorem rounded_le_two_pow (hnum : 0 < num) (hden : 0 < den) : rounded num den ≤ 2 ^ 53 := by
  refine rounded_le hden ?_
  rw [two_pow_mul_zpow]
  exact (div_lt_place hnum hden).le

theorem two_pow_le_rounded (hnum : 0 < num) (hden : 0 < den) :
    place num den = -1074 ∨ 2 ^ 52 ≤ rounded num den := by
  refine (place_eq_or hnum hden).imp id fun hle => le_rounded hden ?_
  rw [two_pow_mul_zpow]
  exact hle

/-- The double of a ratio is the rounded ratio in units of the last place. -/
theorem ofRatio?_spec {negative : Bool} {y : Binary64} (hnum : 0 < num) (hden : 0 < den)
    (h : ofRatio? negative num den = some y) :
    y.negative = negative ∧ y.magnitude = rounded num den * 2 ^ place num den := by
  rw [ofRatio?, if_neg (by omega)] at h
  change (if h : rounded num den + ((place num den + 1074).toNat <<< 52) < 2047 <<< 52 then
    some (Binary64.mk negative _ h) else none) = some y at h
  split at h
  · rw [Option.some.injEq] at h
    subst h
    exact ⟨rfl, magnitude_of_rank (le_place num den) rfl (rounded_le_two_pow hnum hden)
      (two_pow_le_rounded hnum hden)⟩
  · cases h

private theorem lt_zpow_add {m : Nat} {j e : ℤ} (hm : m < 2 ^ 53) (hj : j < e) :
    (m : ℚ) * 2 ^ j < 2 ^ (e + 52) := by
  have hm' : (m : ℚ) < (2 ^ 53 : Nat) := by exact_mod_cast hm
  calc (m : ℚ) * 2 ^ j < (2 ^ 53 : Nat) * 2 ^ j := by
        exact mul_lt_mul_of_pos_right hm' (two_zpow_pos j)
    _ = 2 ^ (j + 53) := two_pow_mul_zpow 53 j
    _ ≤ 2 ^ (e + 52) := zpow_le_zpow_right₀ (by norm_num) (by omega)

private theorem mul_zpow_eq {m : Nat} {j e : ℤ} (h : e ≤ j) :
    (m : ℚ) * 2 ^ j = ((m * 2 ^ (j - e).toNat : Nat) : ℚ) * 2 ^ e := by
  rw [Nat.cast_mul, mul_assoc, two_pow_mul_zpow]
  congr 2
  omega

/-- What lies above a number that a double can be is not rounded below it. -/
theorem le_magnitude {negative : Bool} {y : Binary64} (hnum : 0 < num) (hden : 0 < den)
    (h : ofRatio? negative num den = some y) {j : ℤ} (hm : m < 2 ^ 53) (hj : -1074 ≤ j)
    (hle : (m : ℚ) * 2 ^ j ≤ num / den) : (m : ℚ) * 2 ^ j ≤ y.magnitude := by
  rw [(ofRatio?_spec hnum hden h).2]
  by_cases hplace : place num den ≤ j
  · rw [mul_zpow_eq hplace] at hle ⊢
    have hrounded := le_rounded hden hle
    exact mul_le_mul_of_nonneg_right (by exact_mod_cast hrounded) (two_zpow_pos _).le
  · have hdigits : 2 ^ 52 ≤ rounded num den := by
      rcases two_pow_le_rounded hnum hden with hsmallest | hdigits
      · omega
      · exact hdigits
    calc (m : ℚ) * 2 ^ j ≤ 2 ^ (place num den + 52) := (lt_zpow_add hm (by omega)).le
      _ = (2 ^ 52 : Nat) * 2 ^ place num den := (two_pow_mul_zpow 52 _).symm
      _ ≤ rounded num den * 2 ^ place num den :=
        mul_le_mul_of_nonneg_right (by exact_mod_cast hdigits) (two_zpow_pos _).le

/-- What lies below a number that a double can be is not rounded above it. -/
theorem magnitude_le {negative : Bool} {y : Binary64} (hnum : 0 < num) (hden : 0 < den)
    (h : ofRatio? negative num den = some y) {j : ℤ} (hm : m < 2 ^ 53) (hj : -1074 ≤ j)
    (hle : (num : ℚ) / den ≤ m * 2 ^ j) : y.magnitude ≤ m * 2 ^ j := by
  rw [(ofRatio?_spec hnum hden h).2]
  by_cases hplace : place num den ≤ j
  · rw [mul_zpow_eq hplace] at hle ⊢
    have hrounded := rounded_le hden hle
    exact mul_le_mul_of_nonneg_right (by exact_mod_cast hrounded) (two_zpow_pos _).le
  · -- the ratio has all its digits before the last place and cannot lie below `m · 2^j`
    rcases place_eq_or hnum hden with hsmallest | hdigits
    · omega
    · exact absurd hle (not_le.mpr (lt_of_lt_of_le (lt_zpow_add hm (by omega)) hdigits))

/-- Rounding does not double a ratio that is not a fraction of one. -/
theorem magnitude_le_two_mul {negative : Bool} {y : Binary64} (hden : 0 < den)
    (h : ofRatio? negative num den = some y) (hone : (1 : ℚ) ≤ num / den) :
    y.magnitude ≤ 2 * (num / den) := by
  have hnum : 0 < num := by
    by_contra hzero
    rw [Nat.eq_zero_of_not_pos hzero, Nat.cast_zero, zero_div] at hone
    exact absurd hone (by norm_num)
  obtain ⟨hlow, hhigh⟩ := floorLog2_spec hnum hden
  have hexponent : 0 < floorLog2 num den + 1 := by
    have hlt : (2 : ℚ) ^ (0 : ℤ) < 2 ^ (floorLog2 num den + 1) := by
      rw [zpow_zero]
      exact lt_of_le_of_lt hone hhigh
    exact (zpow_lt_zpow_iff_right₀ (by norm_num : (1 : ℚ) < 2)).mp hlt
  have hbelow : (num : ℚ) / den ≤ (1 : Nat) * 2 ^ (floorLog2 num den + 1) := by
    rw [Nat.cast_one, one_mul]
    exact hhigh.le
  have hle := magnitude_le hnum hden h (by norm_num) (by omega) hbelow
  rw [Nat.cast_one, one_mul, zpow_add₀ (by norm_num : (2 : ℚ) ≠ 0), zpow_one] at hle
  linarith

/-- A ratio below the last binade of the doubles is rounded to one. -/
theorem exists_ofRatio? (negative : Bool) (hnum : 0 < num) (hden : 0 < den)
    (h : (num : ℚ) / den < 2 ^ 1023) : ∃ y, ofRatio? negative num den = some y := by
  have hplace : place num den < 971 := by
    rcases place_eq_or hnum hden with hsmallest | hdigits
    · omega
    · have hlt : (2 : ℚ) ^ (place num den + 52) < 2 ^ (1023 : ℤ) := by
        refine lt_of_le_of_lt hdigits ?_
        exact_mod_cast h
      have hlt' := (zpow_lt_zpow_iff_right₀ (by norm_num : (1 : ℚ) < 2)).mp hlt
      omega
  have hrank : rounded num den + ((place num den + 1074).toNat <<< 52) < 2047 <<< 52 := by
    have hdigits := rounded_le_two_pow hnum hden
    have hexponent : (place num den + 1074).toNat ≤ 2044 := by omega
    rw [Nat.shiftLeft_eq, Nat.shiftLeft_eq]
    omega
  refine ⟨⟨negative, _, hrank⟩, ?_⟩
  rw [ofRatio?, if_neg (by omega)]
  exact dif_pos hrank

/-! ### Products

A product is rounded as the ratio of two products of whole numbers.
-/

theorem numerator_pos {x : Binary64} (h : 0 < x.magnitude) : 0 < x.numerator := by
  rw [← numerator_div_denominator] at h
  by_contra hzero
  rw [Nat.eq_zero_of_not_pos hzero, Nat.cast_zero, zero_div] at h
  exact lt_irrefl _ h

theorem product_eq (x y : Binary64) :
    ((x.numerator * y.numerator : Nat) : ℚ) / (x.denominator * y.denominator : Nat) =
      x.magnitude * y.magnitude := by
  rw [Nat.cast_mul, Nat.cast_mul, mul_div_mul_comm, numerator_div_denominator,
    numerator_div_denominator]

variable {x y z : Binary64} {j : ℤ}

/-- A product above a number that a double can be is not rounded below it. -/
theorem le_magnitude_of_mul? (hx : 0 < x.magnitude) (hy : 0 < y.magnitude)
    (h : x.mul? y = some z) (hm : m < 2 ^ 53) (hj : -1074 ≤ j)
    (hle : (m : ℚ) * 2 ^ j ≤ x.magnitude * y.magnitude) : (m : ℚ) * 2 ^ j ≤ z.magnitude := by
  rw [← product_eq] at hle
  exact le_magnitude (Nat.mul_pos (numerator_pos hx) (numerator_pos hy))
    (Nat.mul_pos x.denominator_pos y.denominator_pos) h hm hj hle

theorem magnitude_le_of_mul? (hx : 0 < x.magnitude) (hy : 0 < y.magnitude)
    (h : x.mul? y = some z) (hm : m < 2 ^ 53) (hj : -1074 ≤ j)
    (hle : x.magnitude * y.magnitude ≤ m * 2 ^ j) : z.magnitude ≤ m * 2 ^ j := by
  rw [← product_eq] at hle
  exact magnitude_le (Nat.mul_pos (numerator_pos hx) (numerator_pos hy))
    (Nat.mul_pos x.denominator_pos y.denominator_pos) h hm hj hle

theorem exists_mul? (hx : 0 < x.magnitude) (hy : 0 < y.magnitude)
    (h : x.magnitude * y.magnitude < 2 ^ 1023) : ∃ z, x.mul? y = some z := by
  rw [← product_eq] at h
  exact exists_ofRatio? _ (Nat.mul_pos (numerator_pos hx) (numerator_pos hy))
    (Nat.mul_pos x.denominator_pos y.denominator_pos) h

theorem negative_of_mul? (hx : 0 < x.magnitude) (hy : 0 < y.magnitude)
    (h : x.mul? y = some z) : z.negative = (x.negative != y.negative) :=
  (ofRatio?_spec (Nat.mul_pos (numerator_pos hx) (numerator_pos hy))
    (Nat.mul_pos x.denominator_pos y.denominator_pos) h).1

/-! ### Whole numbers -/

/-- A double that is a whole number is seen to be that number. -/
theorem toInt?_of_magnitude {n : Nat} (h : x.magnitude = n) :
    x.toInt? = some (if x.negative then -(n : ℤ) else (n : ℤ)) := by
  have hpos := x.denominator_pos
  have hnumerator : x.numerator = n * x.denominator := by
    rw [← numerator_div_denominator, div_eq_iff (by exact_mod_cast hpos.ne')] at h
    exact_mod_cast h
  rw [toInt?, hnumerator, if_pos (Nat.mul_mod_left n _), Nat.mul_div_cancel n hpos]

/-- A double that is seen as a whole number has its magnitude and sign. -/
theorem magnitude_of_toInt? {i : ℤ} (h : x.toInt? = some i) :
    ∃ n : Nat, x.magnitude = n ∧ i = if x.negative then -(n : ℤ) else (n : ℤ) := by
  rw [toInt?] at h
  split at h
  · rename_i hexact
    refine ⟨x.numerator / x.denominator, ?_, (Option.some.inj h).symm⟩
    have hne : (x.denominator : ℚ) ≠ 0 := by exact_mod_cast x.denominator_pos.ne'
    rw [← numerator_div_denominator, div_eq_iff hne]
    exact_mod_cast (Nat.div_mul_cancel (Nat.dvd_of_mod_eq_zero hexact)).symm
  · cases h

end Binary64

end FilterSelect
