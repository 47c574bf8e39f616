/-
What JSON makes of the digits of an integer.

A number token without fraction and exponent is the integer itself as long as that fits 64
bits.  Past them it becomes a double: its leading digits, as many as fit a word, are
rounded, and the product with a power of ten is rounded again.  For the question whether
the double is an integer of 64 bits only one thing matters, namely whether it is greater
than `2^63`.  Rounding respects every bound that is a double itself, so a token of twenty
digits and more stays above `2^63`, and among the shorter ones those are rounded down to
`2^63` that are less than half a place away: `2^63 + 1024` and what is below.
-/
import FilterSelect.Json.Reader
import FilterSelect.Proofs.Number.Rounding
import FilterSelect.Proofs.Text.Digits
import FilterSelect.Value.Reading

namespace FilterSelect

/-- The integers below the range of 64 bits whose doubles lie in it. -/
def RoundsIntoRange (z : Int) : Prop :=
  -(1 <<< 63) - 1024 ≤ z ∧ z < -(1 <<< 63)

instance (z : Int) : Decidable (RoundsIntoRange z) :=
  inferInstanceAs (Decidable (_ ∧ _))

namespace Json

open Text (continued EndsDigits endsDigits_nil)

/-! ### The parts of a token -/

/-- The token of an integer is a sign and digits, without fraction and exponent. -/
theorem ofToken?_digits (negative : Bool) (n : Nat) :
    Numeral.ofToken? ((if negative then ['-'] else []) ++ Text.digits n) =
      some ⟨negative, Text.digits n, none, none⟩ := by
  have htake := Text.takeAllDigits_eq (isDigits_digits n).all endsDigits_nil
  rw [List.append_nil] at htake
  obtain ⟨d, ds, hcons, hd⟩ := (isDigits_digits n).exists_cons
  have hzero : ds = [] ∨ d ≠ '0' := by
    rcases ds with _ | ⟨d', ds⟩
    · exact .inl rfl
    · right
      rintro rfl
      exact Text.digits_ne_zero_cons n d' ds hcons
  have hminus : d ≠ '-' := by
    rintro rfl
    exact absurd hd (by decide)
  rw [hcons] at htake ⊢
  rcases hzero with rfl | hne
  · cases negative <;> simp [Numeral.ofToken?, htake, hminus, Numeral.readTail]
  · cases negative <;> simp [Numeral.ofToken?, htake, hminus, hne, Numeral.readTail]

/-! ### The digits that fit a word -/

private theorem keepDigits_spec {s : Nat} (hs : s < 1 <<< 64) {ds : List Char}
    (hdigits : ∀ c ∈ ds, c.isDigit = true) :
    ∃ kept rest, ds = kept ++ rest ∧
      Numeral.keepDigits s ds = (continued s kept, kept.length) ∧ continued s kept < 1 <<< 64 ∧
        (rest = [] ∨ 1 <<< 64 ≤ 10 * continued s kept + 9) := by
  induction ds generalizing s with
  | nil => exact ⟨[], [], rfl, rfl, hs, .inl rfl⟩
  | cons d ds ih =>
      have hd : d.isDigit = true := hdigits d List.mem_cons_self
      have hds : ∀ c ∈ ds, c.isDigit = true := fun c hc => hdigits c (List.mem_cons_of_mem d hc)
      rw [Numeral.keepDigits]
      dsimp only
      split
      · rename_i hnext
        obtain ⟨kept, rest, rfl, hkeep, hlt, hrest⟩ := ih hnext hds
        refine ⟨d :: kept, rest, rfl, ?_, hlt, hrest⟩
        rw [hkeep]
        rfl
      · rename_i hnext
        have hvalue := Text.digitValue_le hd
        exact ⟨[], d :: ds, rfl, rfl, hs, .inr (by rw [Text.continued_nil]; omega)⟩

theorem toBinary64?_digits (negative : Bool) (n : Nat) :
    ∃ s k : Nat, s < 1 <<< 64 ∧ 10 ^ k * s ≤ n ∧
      (k = 0 ∧ s = n ∨ 0 < k ∧ 1 <<< 64 ≤ 10 * s + 9) ∧
      Numeral.toBinary64? ⟨negative, Text.digits n, none, none⟩ =
        Numeral.scaled? negative s k := by
  obtain ⟨kept, rest, hdigits, hkeep, hlt, hrest⟩ :=
    keepDigits_spec (by decide : 0 < 1 <<< 64) (isDigits_digits n).all
  have hvalue : continued (continued 0 kept) rest = n := by
    rw [← Text.continued_append, ← hdigits]
    exact Text.numeral_digits n
  refine ⟨continued 0 kept, rest.length, hlt, ?_, ?_, ?_⟩
  · rw [← hvalue]
    exact Text.pow_mul_le_continued _ rest
  · rcases hrest with rfl | hfull
    · exact .inl ⟨rfl, hvalue⟩
    · rcases rest with _ | ⟨d, more⟩
      · exact .inl ⟨rfl, hvalue⟩
      · exact .inr ⟨by simp, hfull⟩
  · have hlength : (Text.digits n).length = kept.length + rest.length := by
      rw [hdigits, List.length_append]
    simp only [Numeral.toBinary64?, hkeep, Option.getD_none, Numeral.keepDigits]
    congr 1
    omega

/-! ### Powers of ten

A power of ten is itself a rounded double.  It is at least ten but for the zeroth, and at most
twice what it should be, which is all that is used of it.
-/

namespace Numeral

theorem tenTo_eq {k : Nat} (hk : k ≤ 308) :
    tenTo k = (Binary64.ofRatio? false (10 ^ k) 1).getD (Binary64.largest false) := by
  have hplaces : ((k : Int) + (Text.digits 1).length) = k + 1 := rfl
  have hpow : Nat.pow 10 (-(k : Int)).toNat = 1 := by
    rw [show (-(k : Int)).toNat = 0 by omega]
  rw [tenTo, Binary64.ofDecimal?, if_neg (by decide)]
  dsimp only
  rw [hplaces, if_neg (by omega), if_neg (by omega), hpow, Int.toNat_natCast, Nat.one_mul]
  rfl

private theorem ten_le_magnitude_largest (negative : Bool) :
    10 ≤ (Binary64.largest negative).magnitude := by
  have hrank : (Binary64.largest negative).rank = (2 ^ 53 - 1) + 2045 * 2 ^ 52 := rfl
  rw [Binary64.magnitude_of_normal hrank (by norm_num) (by norm_num)]
  have hone : (1 : ℚ) ≤ 2 ^ (((2045 : Nat) : ℤ) - 1074) := one_le_zpow₀ (by norm_num) (by norm_num)
  calc (10 : ℚ) ≤ (2 ^ 53 - 1 : Nat) := by norm_num
    _ ≤ (2 ^ 53 - 1 : Nat) * 2 ^ (((2045 : Nat) : ℤ) - 1074) :=
      le_mul_of_one_le_right (Nat.cast_nonneg _) hone

/-- There is room for two more binary digits between this power of ten and the end of the range. -/
theorem ten_pow_lt : (10 : ℚ) ^ 307 < 2 ^ 1020 := calc
  (10 : ℚ) ^ 307 = (10 ^ 59) ^ 5 * 10 ^ 12 := by rw [← pow_mul, ← pow_add]
  _ < (2 ^ 196) ^ 5 * 2 ^ 40 := by gcongr <;> norm_num
  _ = 2 ^ 1020 := by rw [← pow_mul, ← pow_add]

/-- The powers of ten before the end of the range are rounded. -/
theorem exists_tenTo {k : Nat} (hk : k ≤ 307) :
    Binary64.ofRatio? false (10 ^ k) 1 = some (tenTo k) := by
  have hlt : ((10 ^ k : Nat) : ℚ) / (1 : Nat) < 2 ^ 1023 := by
    rw [Nat.cast_one, div_one]
    push_cast
    calc (10 : ℚ) ^ k ≤ 10 ^ 307 := pow_le_pow_right₀ (by norm_num) hk
      _ < 2 ^ 1020 := ten_pow_lt
      _ < 2 ^ 1023 := pow_lt_pow_right₀ (by norm_num) (by norm_num)
  obtain ⟨y, hy⟩ := Binary64.exists_ofRatio? false (Nat.pow_pos (by decide)) Nat.one_pos hlt
  rw [tenTo_eq (by omega), hy, Option.getD_some]

private theorem magnitude_tenTo_zero : (tenTo 0).magnitude = 1 := by
  have h := exists_tenTo (Nat.zero_le 307)
  have hlow := Binary64.le_magnitude (m := 1) (j := 0) Nat.one_pos Nat.one_pos h (by norm_num)
    (by norm_num) (by norm_num)
  have hhigh := Binary64.magnitude_le (m := 1) (j := 0) Nat.one_pos Nat.one_pos h (by norm_num)
    (by norm_num) (by norm_num)
  norm_num at hlow hhigh
  exact le_antisymm hhigh hlow

private theorem ten_le_magnitude_tenTo {k : Nat} (hpos : 0 < k) (hk : k ≤ 308) :
    10 ≤ (tenTo k).magnitude := by
  rw [tenTo_eq hk]
  cases h : Binary64.ofRatio? false (10 ^ k) 1 with
  | none => exact ten_le_magnitude_largest false
  | some y =>
      have hten : 10 ≤ 10 ^ k := Nat.le_self_pow (by omega) 10
      have hle := Binary64.le_magnitude (m := 5) (j := 1) (Nat.pow_pos (by decide)) Nat.one_pos h
        (by norm_num) (by norm_num) (by
          have hten' : (10 : ℚ) ≤ (10 ^ k : Nat) := by exact_mod_cast hten
          rw [Nat.cast_one, div_one]
          norm_num at hten' ⊢
          exact hten')
      norm_num at hle
      exact hle

private theorem magnitude_tenTo_le {k : Nat} (hk : k ≤ 307) : (tenTo k).magnitude ≤ 2 * 10 ^ k := by
  have hone : (1 : ℚ) ≤ (10 ^ k : Nat) / (1 : Nat) := by
    rw [Nat.cast_one, div_one]
    exact_mod_cast Nat.one_le_pow k 10 (by decide)
  have hle := Binary64.magnitude_le_two_mul Nat.one_pos (exists_tenTo hk) hone
  rw [Nat.cast_one, div_one] at hle
  exact_mod_cast hle

private theorem magnitude_tenTo_pos {k : Nat} (hk : k ≤ 308) : 0 < (tenTo k).magnitude := by
  rcases Nat.eq_zero_or_pos k with rfl | hpos
  · rw [magnitude_tenTo_zero]
    norm_num
  · exact lt_of_lt_of_le (by norm_num) (ten_le_magnitude_tenTo hpos hk)

private theorem negative_tenTo {k : Nat} (hk : k ≤ 308) : (tenTo k).negative = false := by
  rw [tenTo_eq hk]
  cases h : Binary64.ofRatio? false (10 ^ k) 1 with
  | none => rfl
  | some y => exact (Binary64.ofRatio?_spec (Nat.pow_pos (by decide)) Nat.one_pos h).1

/-! ### Doubles past the words

The leading digits are less than a word, so their double is as exact as a word's, and what they
are scaled by is at least ten unless no digit was left over.
-/

variable {negative : Bool} {s k n : Nat} {x y : Binary64}

/-- A significand that is not zero is rounded to a double that is not zero. -/
theorem one_le_magnitude_of_ofRatio? (hs : 0 < s) (h : Binary64.ofRatio? negative s 1 = some x) :
    1 ≤ x.magnitude := by
  have hone : (1 : ℚ) ≤ s := by exact_mod_cast hs
  have hle := Binary64.le_magnitude (m := 1) (j := 0) hs Nat.one_pos h (by norm_num) (by norm_num)
    (by simpa using hone)
  simpa using hle

private theorem isZero_eq_false (h : 1 ≤ x.magnitude) : x.isZero = false := by
  rw [Binary64.isZero, beq_eq_false_iff_ne]
  intro hrank
  rw [Binary64.magnitude_of_small (by omega), hrank, Nat.cast_zero, zero_mul] at h
  norm_num at h

theorem scaled?_eq (hx : Binary64.ofRatio? negative s 1 = some x) (hs : 0 < s) :
    scaled? negative s k = if 308 < k then none else x.mul? (tenTo k) := by
  have hzero := isZero_eq_false (one_le_magnitude_of_ofRatio? hs hx)
  simp only [scaled?, hx, hzero, Bool.false_eq_true, if_false, Int.toNat_natCast]
  by_cases hk : 308 < k
  · rw [if_pos (by omega), if_pos hk]
  · rw [if_neg (by omega), if_neg hk, if_pos (by omega)]

private theorem exists_of_scaled? (hs : 0 < s) (h : scaled? negative s k = some y) :
    ∃ x, Binary64.ofRatio? negative s 1 = some x ∧ k ≤ 308 ∧ x.mul? (tenTo k) = some y := by
  cases hx : Binary64.ofRatio? negative s 1 with
  | none =>
      rw [scaled?, hx] at h
      cases h
  | some x =>
      rw [scaled?_eq hx hs] at h
      split at h
      · cases h
      · exact ⟨x, rfl, by omega, h⟩

/-- Between `2^63` and `2^64` the doubles are the multiples of `2^11`. -/
theorem place_word (hlow : 2 ^ 63 < n) (hhigh : n < 2 ^ 64) : Binary64.place n 1 = 11 := by
  have hpos : 0 < n := by omega
  have hlow' : ((2 : ℚ)) ^ (63 : ℤ) < n := by exact_mod_cast hlow
  have hhigh' : (n : ℚ) < 2 ^ (64 : ℤ) := by exact_mod_cast hhigh
  have hbelow := Binary64.div_lt_place hpos Nat.one_pos
  rw [Nat.cast_one, div_one] at hbelow
  have hmin : 63 < Binary64.place n 1 + 53 :=
    (zpow_lt_zpow_iff_right₀ (by norm_num : (1 : ℚ) < 2)).mp (hlow'.trans hbelow)
  rcases Binary64.place_eq_or hpos Nat.one_pos with hsmallest | habove
  · omega
  · rw [Nat.cast_one, div_one] at habove
    have hmax : Binary64.place n 1 + 52 < 64 :=
      (zpow_lt_zpow_iff_right₀ (by norm_num : (1 : ℚ) < 2)).mp (lt_of_le_of_lt habove hhigh')
    omega

/-- The tie at `2^63 + 1024` goes down to `2^63`, whose significand is even. -/
theorem rounded_word (hlow : 2 ^ 63 < n) (hhigh : n < 2 ^ 64) :
    (n ≤ 2 ^ 63 + 1024 → Binary64.rounded n 1 = 2 ^ 52) ∧
      (2 ^ 63 + 1024 < n → 2 ^ 52 + 1 ≤ Binary64.rounded n 1) := by
  have hrounded : Binary64.rounded n 1 = divToEven n 2048 := by
    rw [Binary64.rounded, place_word hlow hhigh]
    rfl
  rw [hrounded]
  unfold divToEven
  dsimp only
  constructor
  · intro hband
    split
    · omega
    · split <;> omega
  · intro hpast
    split
    · omega
    · split <;> omega

/-- The token of a number past `2^63` is that power of two up to the tie, and greater after it. -/
theorem magnitude_of_digits (hn : 2 ^ 63 < n)
    (h : toBinary64? ⟨negative, Text.digits n, none, none⟩ = some y) :
    y.negative = negative ∧ (n ≤ 2 ^ 63 + 1024 → y.magnitude = 2 ^ 63) ∧
      (2 ^ 63 + 1024 < n → 2 ^ 63 < y.magnitude) := by
  obtain ⟨s, k, hs, hle, hcases, heq⟩ := toBinary64?_digits negative n
  rw [heq] at h
  have hspos : 0 < s := by
    rcases hcases with ⟨-, rfl⟩ | ⟨-, hfull⟩ <;> omega
  obtain ⟨x, hx, hk, hy⟩ := exists_of_scaled? hspos h
  have hxpos : 0 < x.magnitude :=
    lt_of_lt_of_le one_pos (one_le_magnitude_of_ofRatio? hspos hx)
  have htenpos := magnitude_tenTo_pos hk
  obtain ⟨hsign, hmagnitude⟩ := Binary64.ofRatio?_spec hspos Nat.one_pos hx
  refine ⟨?_, ?_⟩
  · rw [Binary64.negative_of_mul? hxpos htenpos hy, hsign, negative_tenTo hk, Bool.bne_false]
  rcases hcases with ⟨rfl, rfl⟩ | ⟨hkpos, hfull⟩
  · -- all digits fit a word, which is rounded and multiplied with one
    have hword : s < 2 ^ 64 := by omega
    obtain ⟨hdown, hup⟩ := rounded_word hn hword
    rw [place_word hn hword] at hmagnitude
    have hone : x.magnitude * (tenTo 0).magnitude = x.magnitude := by
      rw [magnitude_tenTo_zero, mul_one]
    constructor
    · intro hband
      have hxband : x.magnitude = (1 : Nat) * 2 ^ (63 : ℤ) := by
        rw [hmagnitude, hdown hband]
        norm_num
      have hlow := Binary64.le_magnitude_of_mul? hxpos htenpos hy (m := 1) (j := 63) (by norm_num)
        (by norm_num) (by rw [hone, hxband])
      have hhigh := Binary64.magnitude_le_of_mul? hxpos htenpos hy (m := 1) (j := 63) (by norm_num)
        (by norm_num) (by rw [hone, hxband])
      rw [le_antisymm hhigh hlow]
      norm_num
    · intro hpast
      have hrounded : ((2 ^ 52 + 1 : Nat) : ℚ) ≤ (Binary64.rounded s 1 : ℚ) := by
        exact_mod_cast hup hpast
      have hlow := Binary64.le_magnitude_of_mul? hxpos htenpos hy (m := 2 ^ 52 + 1) (j := 11)
        (by norm_num) (by norm_num) (by
          rw [hone, hmagnitude]
          exact mul_le_mul_of_nonneg_right hrounded (Binary64.two_zpow_pos 11).le)
      refine lt_of_lt_of_le ?_ hlow
      norm_num
  · -- some digits only count their places, so the others fill a word
    have hlarge : 2 ^ 60 ≤ s := by omega
    have htimes : 10 * s ≤ 10 ^ k * s :=
      Nat.mul_le_mul_right s (Nat.le_self_pow (by omega) 10)
    constructor
    · intro hband
      omega
    · intro _
      have hxlarge := Binary64.le_magnitude (m := 1) (j := 60) hspos Nat.one_pos hx (by norm_num)
        (by norm_num) (by
          have hlarge' : ((2 ^ 60 : Nat) : ℚ) ≤ s := by exact_mod_cast hlarge
          rw [Nat.cast_one, div_one, one_mul]
          exact_mod_cast hlarge')
      have hproduct : (1 : Nat) * 2 ^ (60 : ℤ) * 10 ≤ x.magnitude * (tenTo k).magnitude :=
        mul_le_mul hxlarge (ten_le_magnitude_tenTo hkpos hk) (by norm_num) hxpos.le
      have hlow := Binary64.le_magnitude_of_mul? hxpos htenpos hy (m := 5) (j := 61) (by norm_num)
        (by norm_num) (le_trans (by norm_num) hproduct)
      refine lt_of_lt_of_le ?_ hlow
      norm_num

/-- The token of a number below the end of the range stands for a double. -/
theorem exists_toBinary64? (negative : Bool) (hpos : 0 < n) {places : Nat}
    (hplaces : places ≤ 307) (hn : n < 10 ^ places) :
    ∃ y, toBinary64? ⟨negative, Text.digits n, none, none⟩ = some y := by
  obtain ⟨s, k, hs, hle, hcases, heq⟩ := toBinary64?_digits negative n
  have hspos : 0 < s := by
    rcases hcases with ⟨-, rfl⟩ | ⟨-, hfull⟩ <;> omega
  have hk : k < places := by
    have hpow : 10 ^ k < 10 ^ places := calc
      10 ^ k ≤ 10 ^ k * s := Nat.le_mul_of_pos_right _ hspos
      _ ≤ n := hle
      _ < 10 ^ places := hn
    exact (Nat.pow_lt_pow_iff_right (by decide)).mp hpow
  have hone : (1 : ℚ) ≤ (s : ℚ) / (1 : Nat) := by
    rw [Nat.cast_one, div_one]
    exact_mod_cast hspos
  have hword : (s : ℚ) / (1 : Nat) < 2 ^ 1023 := by
    have hs' : (s : ℚ) < 2 ^ 64 := by exact_mod_cast hs
    rw [Nat.cast_one, div_one]
    exact hs'.trans (pow_lt_pow_right₀ (by norm_num) (by norm_num))
  obtain ⟨x, hx⟩ := Binary64.exists_ofRatio? negative hspos Nat.one_pos hword
  have hxlow := one_le_magnitude_of_ofRatio? hspos hx
  have hxhigh := Binary64.magnitude_le_two_mul Nat.one_pos hx hone
  rw [Nat.cast_one, div_one] at hxhigh
  have hle' : (10 : ℚ) ^ k * s ≤ n := by exact_mod_cast hle
  have hn' : (n : ℚ) < 10 ^ places := by exact_mod_cast hn
  have hroom : (n : ℚ) < 2 ^ 1020 :=
    (hn'.trans_le (pow_le_pow_right₀ (by norm_num) hplaces)).trans ten_pow_lt
  have htenpos := magnitude_tenTo_pos (show k ≤ 308 by omega)
  have hproduct : x.magnitude * (tenTo k).magnitude < 2 ^ 1023 := calc
    x.magnitude * (tenTo k).magnitude ≤ 2 * s * (2 * 10 ^ k) :=
      mul_le_mul hxhigh (magnitude_tenTo_le (by omega)) htenpos.le (by positivity)
    _ = 2 ^ 2 * (10 ^ k * s) := by ring
    _ ≤ 2 ^ 2 * n := by gcongr
    _ < 2 ^ 2 * 2 ^ 1020 := by gcongr
    _ = 2 ^ (2 + 1020) := (pow_add 2 2 1020).symm
    _ < 2 ^ 1023 := pow_lt_pow_right₀ (by norm_num) (by norm_num)
  obtain ⟨y, hy⟩ := Binary64.exists_mul? (lt_of_lt_of_le one_pos hxlow) htenpos hproduct
  exact ⟨y, by rw [heq, scaled?_eq hx hspos, if_neg (by omega), hy]⟩

/-! ### The token of an integer -/

/-- The parts of the token of an integer. -/
def ofInt (z : Int) : Numeral :=
  ⟨decide (z < 0), Text.digits z.natAbs, none, none⟩

theorem ofToken?_signedDigits (z : Int) :
    ofToken? (Text.signedDigits z) = some (ofInt z) := by
  rw [ofInt, ← ofToken?_digits, Text.signedDigits]
  by_cases h : z < 0 <;> simp [h]

/-- What fits 64 bits, signed or not, is the integer itself. -/
theorem toNumber?_of_fits {z : Int} (h : -(1 <<< 63) ≤ z ∧ z < 1 <<< 64) :
    (ofInt z).toNumber? = some (.integer z h) := by
  have hvalue : Text.numeral (ofInt z).whole = z.natAbs := Text.numeral_digits _
  have hpart : (ofInt z).fraction.isNone && (ofInt z).exponent.isNone = true := rfl
  have hsign : (ofInt z).negative = decide (z < 0) := rfl
  unfold toNumber?
  by_cases hnegative : z < 0
  · rw [dif_neg (by simp [hsign, hnegative]), dif_pos ⟨hpart, by simp [hsign, hnegative], by omega⟩]
    simp only [hvalue]
    congr 2
    omega
  · rw [dif_pos ⟨hpart, by simp [hsign, hnegative], by omega⟩]
    simp only [hvalue]
    congr 2
    omega

/-- Any other integer is rounded. -/
theorem toNumber?_of_not_fits {z : Int} (h : ¬ (-(1 <<< 63) ≤ z ∧ z < 1 <<< 64)) :
    (ofInt z).toNumber? = (ofInt z).toBinary64?.map .float := by
  have hvalue : Text.numeral (ofInt z).whole = z.natAbs := Text.numeral_digits _
  have hsign : (ofInt z).negative = decide (z < 0) := rfl
  unfold toNumber?
  rw [dif_neg, dif_neg]
  · rintro ⟨-, hnegative, -, hle⟩
    rw [hsign, decide_eq_true_eq] at hnegative
    omega
  · rintro ⟨-, hnegative, hlt⟩
    rw [hsign, decide_eq_false_iff_not] at hnegative
    omega

end Numeral

/-! ### The text of an integer

A sign and digits are one word of the reader, so the text of an integer is read in one step.
-/

private theorem Token.scan_word (found : List Token) (seen : List Char) {letters : List Char}
    (h : ∀ c ∈ letters, Token.isWordChar c = true) :
    Token.scan found (.inWord seen) letters = some (.word (seen.reverse ++ letters) :: found) := by
  induction letters generalizing seen with
  | nil => rw [Token.scan, List.append_nil]
  | cons c rest ih =>
      rw [Token.scan, if_pos (h c List.mem_cons_self),
        ih (c :: seen) fun d hd => h d (List.mem_cons_of_mem c hd)]
      simp

private theorem Token.all?_word {letters : List Char} (hne : letters ≠ [])
    (h : ∀ c ∈ letters, Token.isWordChar c = true) :
    Token.all? letters = some [.word letters] := by
  obtain ⟨c, rest, rfl⟩ := List.exists_cons_of_ne_nil hne
  have hc := h c List.mem_cons_self
  have hspace : Token.isSpace c = false := by
    rw [← Bool.not_eq_true]
    intro hspace
    simp only [Token.isSpace, Bool.or_eq_true, beq_iff_eq] at hspace
    rcases hspace with ((rfl | rfl) | rfl) | rfl <;> exact absurd hc (by decide)
  have hquote : c ≠ '"' := by
    rintro rfl
    exact absurd hc (by decide)
  rw [Token.all?, Token.scan, Token.start?, hspace, if_neg Bool.false_ne_true, if_neg hquote,
    if_pos hc]
  dsimp only [Option.toList, List.nil_append]
  rw [Token.scan_word _ _ fun d hd => h d (List.mem_cons_of_mem c hd)]
  rfl

theorem Document.ofText?_word {letters : List Char} (hne : letters ≠ [])
    (h : ∀ c ∈ letters, Token.isWordChar c = true) :
    Document.ofText? (String.ofList letters) = Reader.ofWord? letters := by
  rw [Document.ofText?, String.toList_ofList, Token.all?_word hne h]
  dsimp only
  rw [Reader.run, Reader.step, Reader.startValue]
  cases Reader.ofWord? letters <;> rfl

private theorem isWordChar_of_isDigit {c : Char} (h : c.isDigit = true) :
    Token.isWordChar c = true := by
  simp [Token.isWordChar, Char.isAlphanum, h]

/-- The digits of an integer are a word. -/
theorem isWordChar_signedDigits (z : Int) :
    ∀ c ∈ Text.signedDigits z, Token.isWordChar c = true := by
  intro c hc
  rcases mem_signedDigits hc with rfl | hdigit
  · rfl
  · exact isWordChar_of_isDigit hdigit

theorem signedDigits_ne_nil (z : Int) : Text.signedDigits z ≠ [] := by
  unfold Text.signedDigits
  split
  · exact List.cons_ne_nil _ _
  · exact (isDigits_digits _).ne_nil

/-- The text of an integer is a number, or beyond the range of doubles it denotes nothing. -/
theorem Document.ofText?_signedDigits (z : Int) :
    Document.ofText? (String.ofList (Text.signedDigits z)) =
      some (((Numeral.ofInt z).toNumber?.map Document.number).getD .meaningless) := by
  have hword : ∀ keyword : List Char, Numeral.ofToken? keyword = none →
      Text.signedDigits z ≠ keyword := by
    rintro _ hnone rfl
    rw [Numeral.ofToken?_signedDigits] at hnone
    cases hnone
  rw [Document.ofText?_word (signedDigits_ne_nil z) (isWordChar_signedDigits z), Reader.ofWord?,
    if_neg (hword _ (by decide)), if_neg (hword _ (by decide)), if_neg (hword _ (by decide)),
    Numeral.ofToken?_signedDigits, Option.map_some]
  cases (Numeral.ofInt z).toNumber? <;> rfl

/-- The number that a text writes, where the text is the digits of an integer. -/
theorem toNumber?_of_ofText? {z : Int} {n : Number}
    (h : Document.ofText? (String.ofList (Text.signedDigits z)) = some (.number n)) :
    (Numeral.ofInt z).toNumber? = some n := by
  rw [Document.ofText?_signedDigits, Option.some.injEq] at h
  cases hnumber : (Numeral.ofInt z).toNumber? with
  | none =>
      rw [hnumber] at h
      cases h
  | some m =>
      rw [hnumber] at h
      cases h
      rfl

/-- Every integer before the end of the range of doubles is written by its digits. -/
theorem exists_ofText? {z : Int} {places : Nat} (hplaces : places ≤ 307)
    (hz : z.natAbs < 10 ^ places) :
    ∃ n, Document.ofText? (String.ofList (Text.signedDigits z)) = some (.number n) := by
  rw [Document.ofText?_signedDigits]
  by_cases hfits : -(1 <<< 63) ≤ z ∧ z < 1 <<< 64
  · exact ⟨.integer z hfits, by rw [Numeral.toNumber?_of_fits hfits]; rfl⟩
  · obtain ⟨y, hy⟩ := Numeral.exists_toBinary64? (decide (z < 0)) (by omega) hplaces hz
    have hnumber : (Numeral.ofInt z).toNumber? = some (.float y) := by
      rw [Numeral.toNumber?_of_not_fits hfits, Numeral.ofInt, hy]
      rfl
    exact ⟨.float y, by rw [hnumber]; rfl⟩

end Json

end FilterSelect
