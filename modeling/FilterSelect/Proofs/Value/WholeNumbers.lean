/-
Which scalars are integers.

A scalar is an integer if it is a number that is worth one, or a string of digits with a
sign or without, between white space.  The reader should take exactly those that 64 bits
hold, as the integer that they are (`Json.WritesInteger`), and it reaches each in its own
way: a word is checked against the range, digits are added up under a limit, and a double
is asked whether it is whole.

Doubles are where a reader can go wrong.  The usual way is to test a double against the
bounds of the range and to cast it, and both steps are inexact.  The upper bound is no
double and is rounded to `2^63`; the cast drops fractions and holds whatever lies outside
the range at its ends.  The test makes up for it.  It leaves the upper bound out, and what
it lets through is whole, so that the cast has nothing to drop and nothing to hold
(`Binary64.fitsInt64_iff`, `value_toInt64`).
-/
import FilterSelect.Proofs.Number.Numerals
import FilterSelect.Proofs.Number.Reading
import FilterSelect.Proofs.Value.RoundTrip
import FilterSelect.Proofs.Value.Scalars
import Mathlib.Data.List.TakeWhile

namespace FilterSelect

open Decimal (SignText)
open Text (IsBlankRun)

/-! ### What writes an integer -/

/-- What an integer is when it has this magnitude and sign. -/
def signedInt (negative : Bool) (n : Nat) : Int :=
  if negative then -(n : Int) else n

/-- A JSON value writes an integer: a number that is worth it, or its digits in a string. -/
inductive Json.WritesInteger : Json → Int → Prop
  | number {n : Json.Number} {z : Int} (h : n.value = z) : WritesInteger (.number n) z
  /-- Zeros may stand in front, and a plus sign as well as a minus. -/
  | digits {negative : Bool} {before sign ds after : List Char} (hbefore : IsBlankRun before)
      (hsign : SignText negative sign) (hds : IsDigits ds) (hafter : IsBlankRun after) :
      WritesInteger (.string (String.ofList (before ++ (sign ++ ds) ++ after)))
        (signedInt negative (Text.numeral ds))

/-! ### Digits

Reading stops at the first character that is no digit and at the first digit that leads past
the limit, so what is read to the end had neither.
-/

private theorem Text.exists_trim (s : List Char) :
    ∃ before after, IsBlankRun before ∧ IsBlankRun after ∧ s = before ++ trim s ++ after := by
  have hfront (t : List Char) : IsBlankRun (t.takeWhile isBlank) := by
    intro c hc
    exact List.mem_takeWhile_imp hc
  refine ⟨s.takeWhile isBlank, ((trimLeft s).reverse.takeWhile isBlank).reverse, hfront s, ?_, ?_⟩
  · intro c hc
    exact hfront _ c (List.mem_reverse.mp hc)
  · have hback : trim s ++ ((trimLeft s).reverse.takeWhile isBlank).reverse = trimLeft s := by
      rw [trim, trimRight, trimLeft, ← List.reverse_append, List.takeWhile_append_dropWhile,
        List.reverse_reverse]
    rw [List.append_assoc, hback]
    exact List.takeWhile_append_dropWhile.symm

namespace Integer64

variable {limit n m : Nat} {beyond : Fault} {s : List Char}

/-- Reading on succeeds for digits that stay within the limit, with the number they make. -/
theorem readDigits_eq_ok_iff (hn : n ≤ limit) : readDigits limit beyond n s = .ok m ↔
    (∀ c ∈ s, c.isDigit = true) ∧ Text.continued n s ≤ limit ∧ m = Text.continued n s := by
  constructor
  · intro h
    have hdigits : ∀ c ∈ s, c.isDigit = true := by
      clear hn
      induction s generalizing n with
      | nil => nofun
      | cons d ds ih =>
          rw [readDigits] at h
          split at h
          · rename_i hd
            dsimp only at h
            split at h
            · exact List.forall_mem_cons.mpr ⟨hd, ih h⟩
            · cases h
          · cases h
    by_cases hlimit : Text.continued n s ≤ limit
    · rw [readDigits_eq beyond hdigits hlimit] at h
      exact ⟨hdigits, hlimit, (Except.ok.inj h).symm⟩
    · rw [readDigits_beyond beyond hdigits hn (Nat.lt_of_not_le hlimit)] at h
      cases h
  · rintro ⟨hdigits, hlimit, rfl⟩
    exact readDigits_eq beyond hdigits hlimit

private theorem readMagnitude_eq_ok_iff :
    readMagnitude limit beyond s = .ok m ↔
      IsDigits s ∧ Text.numeral s ≤ limit ∧ m = Text.numeral s := by
  unfold readMagnitude
  split
  · rename_i hnil
    constructor
    · intro h
      cases h
    · rintro ⟨hdigits, -⟩
      exact absurd hnil hdigits.ne_nil
  · rename_i hne
    rw [readDigits_eq_ok_iff (Nat.zero_le limit), Text.continued_zero]
    exact and_congr_left' ⟨fun hall => ⟨hne, hall⟩, fun hdigits => hdigits.all⟩

private theorem map_readMagnitude_eq_ok_iff {word : Int → Int64} {i : Int64} :
    (readMagnitude limit beyond s >>= fun n => pure (n : Int)).map word = .ok i ↔
      IsDigits s ∧ Text.numeral s ≤ limit ∧ word (Text.numeral s) = i := by
  cases hread : readMagnitude limit beyond s with
  | error fault =>
      have hrefused (hdigits : IsDigits s) (hlimit : Text.numeral s ≤ limit) : False := by
        rw [readMagnitude_eq_ok_iff.mpr ⟨hdigits, hlimit, rfl⟩] at hread
        cases hread
      constructor
      · intro h
        cases h
      · rintro ⟨hdigits, hlimit, -⟩
        exact absurd hlimit (hrefused hdigits)
  | ok n =>
      obtain ⟨hdigits, hlimit, rfl⟩ := readMagnitude_eq_ok_iff.mp hread
      constructor
      · intro h
        exact ⟨hdigits, hlimit, Except.ok.inj h⟩
      · rintro ⟨-, -, rfl⟩
        rfl

/-- A text is read as an integer if it is a sign and digits and 64 bits hold the integer. -/
theorem read_eq_ok_iff {i : Int64} : read s = .ok i ↔ ∃ negative sign ds,
    SignText negative sign ∧ IsDigits ds ∧ s = sign ++ ds ∧
      i.toInt = signedInt negative (Text.numeral ds) := by
  constructor
  · intro h
    unfold read at h
    split at h
    · cases h
    · rename_i rest
      obtain ⟨hdigits, hlimit, rfl⟩ := map_readMagnitude_eq_ok_iff.mp h
      exact ⟨true, ['-'], rest, .minus, hdigits, rfl, Int64.toInt_ofInt_of_le (by omega) (by omega)⟩
    · rename_i rest
      obtain ⟨hdigits, hlimit, rfl⟩ := map_readMagnitude_eq_ok_iff.mp h
      exact ⟨false, ['+'], rest, .plus, hdigits, rfl, Int64.toInt_ofInt_of_le (by omega) (by omega)⟩
    · obtain ⟨hdigits, hlimit, rfl⟩ := map_readMagnitude_eq_ok_iff.mp h
      exact ⟨false, [], s, .none, hdigits, rfl, Int64.toInt_ofInt_of_le (by omega) (by omega)⟩
  · rintro ⟨negative, sign, ds, hsign, hdigits, rfl, hi⟩
    have hlow := i.le_toInt
    have hhigh := i.toInt_lt
    have hword : Int64.ofInt (signedInt negative (Text.numeral ds)) = i := by
      rw [← hi, Int64.ofInt_toInt]
    cases hsign with
    | none =>
        have hi' : i.toInt = Text.numeral ds := hi
        rw [List.nil_append, read_digits hdigits]
        exact map_readMagnitude_eq_ok_iff.mpr ⟨hdigits, by omega, hword⟩
    | plus =>
        have hi' : i.toInt = Text.numeral ds := hi
        rw [List.cons_append, List.nil_append, read]
        exact map_readMagnitude_eq_ok_iff.mpr ⟨hdigits, by omega, hword⟩
    | minus =>
        have hi' : i.toInt = -(Text.numeral ds : Int) := hi
        rw [List.cons_append, List.nil_append, read]
        exact map_readMagnitude_eq_ok_iff.mpr ⟨hdigits, by omega, hword⟩

end Integer64

namespace Binary64

variable {x : Binary64}

private theorem magnitude_nonneg (x : Binary64) : 0 ≤ x.magnitude :=
  mul_nonneg (Nat.cast_nonneg _) (two_zpow_pos _).le

private theorem value_of_toInt? {z : Int} (h : x.toInt? = some z) : x.value = z := by
  obtain ⟨n, hn, rfl⟩ := magnitude_of_toInt? h
  rw [value, hn]
  split <;> push_cast <;> rfl

theorem toInt?_eq_some_iff {z : Int} : x.toInt? = some z ↔ x.value = z := by
  constructor
  · exact value_of_toInt?
  · intro h
    have hmagnitude : x.magnitude = (z.natAbs : Nat) := by
      rw [← abs_of_nonneg x.magnitude_nonneg, Nat.cast_natAbs, Int.cast_abs, ← h, value]
      split
      · rw [abs_neg]
      · rfl
    have hseen := toInt?_of_magnitude hmagnitude
    have hsame := (value_of_toInt? hseen).symm.trans h
    rw [hseen, Int.cast_injective hsame]

/-! ### Casting to a word

The bounds of the range are compared as doubles.  The lower one is a double and the upper one
is rounded up, so a double that is worth the rounded bound has to be kept out by the strictness
of the test.
-/

/-- The whole part, toward zero. -/
def truncated (x : Binary64) : Int :=
  signedInt x.negative (x.numerator / x.denominator)

/-- The cast to a word: the whole part, or the end of the range that it lies beyond. -/
def toInt64 (x : Binary64) : Int64 :=
  Int64.ofInt (max (-(1 <<< 63)) (min ((1 <<< 63) - 1) x.truncated))

/-- The test before the cast: a whole number between the bounds, as they are when rounded. -/
def FitsInt64 (x : Binary64) : Prop :=
  x.value = x.truncated ∧ (ofInt (-(1 <<< 63))).value ≤ x.value ∧
    x.value < (ofInt ((1 <<< 63) - 1)).value

instance (x : Binary64) : Decidable x.FitsInt64 :=
  inferInstanceAs (Decidable (_ ∧ _ ∧ _))

theorem truncated_eq {z : Int} (h : x.value = z) : x.truncated = z := by
  have hseen := toInt?_eq_some_iff.mpr h
  rw [toInt?] at hseen
  split at hseen
  · exact Option.some.inj hseen
  · cases hseen

/-- The lower bound is a double; the upper one is not, and it is rounded up. -/
theorem value_bounds : (ofInt (-(1 <<< 63))).value = (-(1 <<< 63) : Int) ∧
    (ofInt ((1 <<< 63) - 1)).value = (1 <<< 63 : Int) := by
  have hleast : ofInt (-(1 <<< 63)) = ⟨true, 1086 <<< 52, by decide⟩ := by decide
  have hpast : ofInt ((1 <<< 63) - 1) = ⟨false, 1086 <<< 52, by decide⟩ := by decide
  have hmagnitude (negative : Bool) (h : 1086 <<< 52 < 2047 <<< 52) :
      magnitude ⟨negative, 1086 <<< 52, h⟩ = 2 ^ 63 := by
    have hrank : (1086 <<< 52 : Nat) = 2 ^ 52 + 1085 * 2 ^ 52 := by decide
    rw [magnitude_of_normal hrank (Nat.le_refl _) (by norm_num)]
    norm_num
  constructor
  · rw [hleast, value, if_pos rfl, hmagnitude]
    norm_num [Nat.shiftLeft_eq]
  · rw [hpast, value, if_neg Bool.false_ne_true, hmagnitude]
    norm_num [Nat.shiftLeft_eq]

/-- A double passes the test if and only if it is worth an integer of 64 bits. -/
theorem fitsInt64_iff : x.FitsInt64 ↔
    ∃ z : Int, x.value = z ∧ -(1 <<< 63) ≤ z ∧ z < 1 <<< 63 := by
  obtain ⟨hleast, hpast⟩ := value_bounds
  rw [FitsInt64, hleast, hpast]
  constructor
  · rintro ⟨hwhole, hlow, hhigh⟩
    rw [hwhole] at hlow hhigh
    exact ⟨x.truncated, hwhole, by exact_mod_cast hlow, by exact_mod_cast hhigh⟩
  · rintro ⟨z, hz, hlow, hhigh⟩
    rw [truncated_eq hz, hz]
    exact ⟨rfl, by exact_mod_cast hlow, by exact_mod_cast hhigh⟩

theorem value_toInt64 (h : x.FitsInt64) : x.value = x.toInt64.toInt := by
  obtain ⟨z, hz, hlow, hhigh⟩ := fitsInt64_iff.mp h
  rw [toInt64, truncated_eq hz, min_eq_right (by omega), max_eq_right hlow,
    Int64.toInt_ofInt_of_le hlow hhigh, hz]

/-- A word past the signed ones is rounded to a double that does not pass the test. -/
theorem not_fitsInt64_word {z : Int} (hlow : 1 <<< 63 ≤ z) (hhigh : z < 1 <<< 64) :
    ¬ (ofInt z).FitsInt64 := by
  obtain ⟨n, rfl⟩ := Int.eq_ofNat_of_zero_le (show 0 ≤ z by omega)
  have hpos : 0 < n := by omega
  have hword : n < 2 ^ 64 := by omega
  have hle : (1 : Nat) * 2 ^ (63 : ℤ) ≤ (n : ℚ) / (1 : Nat) := by
    have hn : ((2 ^ 63 : Nat) : ℚ) ≤ n := by exact_mod_cast (show 2 ^ 63 ≤ n by omega)
    norm_num at hn ⊢
    exact hn
  have hmagnitude := le_magnitude hpos Nat.one_pos (ofRatio?_word hpos hword) (by norm_num)
    (by norm_num) hle
  rw [← value_ofInt_word hpos hword] at hmagnitude
  intro hfits
  obtain ⟨w, hw, -, hlt⟩ := fitsInt64_iff.mp hfits
  have hlt' : (w : ℚ) < 2 ^ 63 := by exact_mod_cast (show w < 2 ^ 63 by omega)
  rw [hw] at hmagnitude
  norm_num at hmagnitude hlt'
  exact absurd hmagnitude (not_le.mpr hlt')

end Binary64

/-! ### Readers -/

/-- The word that a number is, or else the cast of its double if that passes the test. -/
def Json.Number.castInt64? (n : Json.Number) : Option Int64 :=
  n.toInt64?.or (if n.toBinary64.FitsInt64 then some n.toBinary64.toInt64 else none)

namespace Value

/-- A number is read as the integer that it is worth. -/
theorem integerOf?_eq_some_iff {n : Json.Number} {i : Int64} :
    integerOf? n = some i ↔ n.value = i.toInt := by
  cases n with
  | integer z hz =>
      rw [integerOf?, Integer64.ofInt?_eq_some_iff, Json.Number.value, eq_comm]
      exact Int.cast_inj.symm
  | float x =>
      rw [integerOf?, Option.bind_eq_some_iff, Json.Number.value]
      constructor
      · rintro ⟨z, hseen, hword⟩
        rw [Integer64.ofInt?_eq_some_iff.mp hword]
        exact Binary64.toInt?_eq_some_iff.mp hseen
      · intro h
        exact ⟨i.toInt, Binary64.toInt?_eq_some_iff.mpr h, Integer64.ofInt?_eq_some_iff.mpr rfl⟩

theorem castInt64?_eq (n : Json.Number) : n.castInt64? = integerOf? n := by
  cases n with
  | integer z hz =>
      rw [Json.Number.castInt64?, Json.Number.toInt64?, Json.Number.toBinary64, integerOf?]
      cases hword : Integer64.ofInt? z with
      | some i => rfl
      | none =>
          have hpast : 1 <<< 63 ≤ z := by
            by_contra hlt
            rw [Integer64.ofInt?, if_pos ⟨hz.1, by omega⟩] at hword
            cases hword
          rw [if_neg (Binary64.not_fitsInt64_word hpast hz.2)]
          rfl
  | float x =>
      rw [Json.Number.castInt64?, Json.Number.toInt64?, Json.Number.toBinary64, Option.none_or]
      split
      · rename_i hfits
        have hvalue : (Json.Number.float x).value = x.toInt64.toInt := Binary64.value_toInt64 hfits
        rw [integerOf?_eq_some_iff.mpr hvalue]
      · rename_i hfits
        cases hread : integerOf? (.float x) with
        | none => rfl
        | some i =>
            have hvalue : x.value = i.toInt := integerOf?_eq_some_iff.mp hread
            exact absurd (Binary64.fitsInt64_iff.mpr ⟨i.toInt, hvalue, i.le_toInt, i.toInt_lt⟩)
              hfits

private theorem readInteger_number (n : Json.Number) :
    (readInteger (.number n)).toOption = integerOf? n := by
  cases hread : integerOf? n <;> simp [readInteger, hread, Except.toOption]

/-- Of a string, everything but the white space around it is read. -/
theorem readInteger_string_eq_ok_iff {s : String} {i : Int64} :
    readInteger (.string s) = .ok i ↔ Integer64.read (Text.trim s.toList) = .ok i := by
  show readTextWith Integer64.read .integer (.string s) = .ok i ↔ _
  rw [readTextWith, readText]
  cases hread : Integer64.read (Text.trim s.toList) <;> simp [hread]

private theorem isTight_signed {negative : Bool} {sign ds : List Char}
    (hsign : SignText negative sign)
    (hds : IsDigits ds) : Text.IsTight (sign ++ ds) := by
  have hdigits := Text.isTight_of_isDigits hds
  cases hsign with
  | none => exact hdigits
  | plus => exact (Text.isTight_singleton (by decide)).enclose hdigits []
  | minus => exact (Text.isTight_singleton (by decide)).enclose hdigits []

/-- A scalar is read as an integer of 64 bits if and only if it writes that integer. -/
theorem readInteger_eq_ok_iff {raw : Json} {i : Int64} :
    readInteger raw = .ok i ↔ raw.WritesInteger i.toInt := by
  cases raw with
  | number n =>
      have hread : readInteger (.number n) = .ok i ↔ integerOf? n = some i := by
        rw [← readInteger_number]
        cases readInteger (.number n) <;> simp [Except.toOption]
      rw [hread, integerOf?_eq_some_iff]
      constructor
      · exact .number
      · intro h
        cases h
        assumption
  | string s =>
      rw [readInteger_string_eq_ok_iff, Integer64.read_eq_ok_iff]
      constructor
      · rintro ⟨negative, sign, ds, hsign, hds, htrim, hi⟩
        obtain ⟨before, after, hbefore, hafter, hs⟩ := Text.exists_trim s.toList
        rw [← String.ofList_toList (s := s), hs, htrim, hi]
        exact .digits hbefore hsign hds hafter
      · intro h
        generalize hz : i.toInt = z at h
        cases h with
        | digits hbefore hsign hds hafter =>
            rw [String.toList_ofList, Text.trim_eq hbefore hafter (isTight_signed hsign hds)]
            exact ⟨_, _, _, hsign, hds, rfl, rfl⟩
  | _ =>
      constructor
      · intro h
        cases h
      · intro h
        cases h

/--
**Integers are read exactly or refused.**

A scalar is read as an integer if and only if it writes that integer and 64 bits hold it:
a number that is worth the integer, however it is held, or a string of its digits with an
optional sign, some zeros in front and white space around.  Everything else is refused.
For numbers this is what testing the double and casting it comes to, and what passes the
test is cast to exactly what it is worth.
-/
theorem readInteger_exact (raw : Json) :
    (∀ z : Int, (∃ i : Int64, readInteger raw = .ok i ∧ i.toInt = z) ↔
      raw.WritesInteger z ∧ -(1 <<< 63) ≤ z ∧ z < 1 <<< 63) ∧
    ((∀ z, raw.WritesInteger z → ¬ (-(1 <<< 63) ≤ z ∧ z < 1 <<< 63)) →
      ∃ refusal, readInteger raw = .error refusal) ∧
    ∀ n, raw = .number n → (readInteger raw).toOption = n.castInt64? ∧
      (n.toBinary64.FitsInt64 → (n.toBinary64.toInt64.toInt : ℚ) = n.toBinary64.value) := by
  refine ⟨?_, ?_, ?_⟩
  · intro z
    constructor
    · rintro ⟨i, hread, rfl⟩
      exact ⟨readInteger_eq_ok_iff.mp hread, i.le_toInt, i.toInt_lt⟩
    · rintro ⟨hwrites, hlow, hhigh⟩
      have hword : (Int64.ofInt z).toInt = z := Int64.toInt_ofInt_of_le hlow hhigh
      refine ⟨Int64.ofInt z, readInteger_eq_ok_iff.mpr ?_, hword⟩
      rwa [hword]
  · intro hnone
    cases hread : readInteger raw with
    | error refusal => exact ⟨refusal, rfl⟩
    | ok i => exact absurd ⟨i.le_toInt, i.toInt_lt⟩ (hnone _ (readInteger_eq_ok_iff.mp hread))
  · rintro n rfl
    rw [readInteger_number, castInt64?_eq]
    exact ⟨rfl, fun hfits => (Binary64.value_toInt64 hfits).symm⟩

/-- Zero is an integer with either sign. -/
example : (readInteger (.number (.float (Binary64.zero true)))).toOption = some 0 := rfl

end Value

end FilterSelect
