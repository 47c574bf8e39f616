/-
Numerals without an exponent, and the decimals they are read as.

A decimal holds a coefficient below `2^96` and a scale of at most 28, so a numeral may have
more digits than there is room for.  Reading takes digits while there is room; the first one
without room rounds the coefficient half up, and the others are dropped.  What that does to
a number is `Rounds`: the coefficient is the nearest whole number at its scale, and where it
is not the number itself, no further digit had room.

It follows that a number which is some decimal is read as exactly that number
(`Rounds.exact_iff`), and that a numeral is refused if and only if its number is so great
that it would round to `2^96` (`plainReading`).
-/
import FilterSelect.Proofs.Number.Reading
import Mathlib.Algebra.Order.Field.Power
import Mathlib.Algebra.Order.Field.Rat
import Mathlib.Tactic.FieldSimp
import Mathlib.Tactic.Linarith
import Mathlib.Tactic.NormNum
import Mathlib.Tactic.Positivity
import Mathlib.Tactic.Ring

namespace FilterSelect

open Text (continued)

namespace Decimal

/-! ### The number that a decimal is

A coefficient and a scale are one way among others to write a number.  Whether a number fits is
asked of all of them.
-/

/-- A number with a sign in front of it; true stands for minus. -/
def signed (negative : Bool) (r : ℚ) : ℚ :=
  if negative then -r else r

def magnitude (d : Decimal) : ℚ :=
  d.coefficient / 10 ^ d.scale

/-- The number that a decimal is. -/
def value (d : Decimal) : ℚ :=
  signed d.negative d.magnitude

/-- Some decimal is this number: it has a coefficient below `2^96` and a scale of at most 28. -/
def Fits (q : ℚ) : Prop :=
  ∃ d : Decimal, d.value = q

theorem signed_inj {negative : Bool} {r r' : ℚ} :
    signed negative r = signed negative r' ↔ r = r' := by
  cases negative <;> simp [signed]

theorem abs_signed_sub (negative : Bool) (r r' : ℚ) :
    |signed negative r - signed negative r'| = |r - r'| := by
  cases negative with
  | false => rfl
  | true => rw [signed, signed, if_pos rfl, if_pos rfl, neg_sub_neg, abs_sub_comm]

theorem abs_signed {r : ℚ} (h : 0 ≤ r) (negative : Bool) : |signed negative r| = r := by
  cases negative with
  | false => exact abs_of_nonneg h
  | true => exact (abs_neg r).trans (abs_of_nonneg h)

theorem signed_mul (negative : Bool) (r x : ℚ) :
    signed negative r * x = signed negative (r * x) := by
  cases negative <;> simp [signed]

theorem magnitude_mul_pow (d : Decimal) : d.magnitude * 10 ^ d.scale = d.coefficient := by
  rw [magnitude, div_mul_cancel₀ _ (by positivity)]

/-- Without its sign, a number fits if it is a whole number below `2^96` at some scale. -/
theorem fits_signed_iff {negative : Bool} {r : ℚ} (h : 0 ≤ r) :
    Fits (signed negative r) ↔ ∃ c s : Nat, c < 2 ^ 96 ∧ s ≤ 28 ∧ r * 10 ^ s = c := by
  constructor
  · rintro ⟨d, hd⟩
    have hmagnitude : r = d.magnitude := by
      rw [← abs_signed h negative, ← hd, value, abs_signed (by unfold magnitude; positivity)]
    exact ⟨d.coefficient, d.scale, d.coefficient_lt, d.scale_le, by
      rw [hmagnitude, magnitude_mul_pow]⟩
  · rintro ⟨c, s, hc, hs, heq⟩
    refine ⟨⟨negative, c, s, hc, hs⟩, ?_⟩
    rw [value, magnitude, ← heq, mul_div_cancel_right₀ _ (by positivity)]

theorem mul_pow_eq_of_le {r : ℚ} {c s s' : Nat} (h : r * 10 ^ s = c) (hle : s ≤ s') :
    r * 10 ^ s' = (c * 10 ^ (s' - s) : Nat) := by
  obtain ⟨k, rfl⟩ := Nat.exists_eq_add_of_le hle
  rw [Nat.add_sub_cancel_left, pow_add, ← mul_assoc, h]
  push_cast
  rfl

/-! ### Rounding at a scale

Of a number one coefficient is nearest at each scale.  What is kept is the one at the last
scale that has room for it, and it is exact if the number fits at all.
-/

/-- `c` is the whole number nearest to `r` at the scale `s`, half up. -/
structure Near (r : ℚ) (c s : Nat) : Prop where
  low : (c : ℚ) - 1 / 2 ≤ r * 10 ^ s
  high : r * 10 ^ s < c + 1 / 2

theorem Near.eq_of_natCast {r : ℚ} {c s m : Nat} (h : Near r c s) (hm : r * 10 ^ s = m) :
    c = m := by
  obtain ⟨hlow, hhigh⟩ := h
  rw [hm] at hlow hhigh
  have hle : (c : ℚ) < (m + 1 : Nat) := by push_cast; linarith
  have hge : (m : ℚ) < (c + 1 : Nat) := by push_cast; linarith
  rw [Nat.cast_lt] at hle hge
  omega

/-- What is kept of the number `r`: a rounded coefficient at the last scale with room for one. -/
structure Rounds (r : ℚ) (c s : Nat) : Prop extends Near r c s where
  coefficient_lt : c < 2 ^ 96
  scale_le : s ≤ 28
  full : r * 10 ^ s = c ∨ s = 28 ∨ 2 ^ 96 ≤ 10 * c ∧ 2 ^ 96 - 1 / 2 ≤ r * 10 ^ (s + 1)

theorem Rounds.of_eq {r : ℚ} {c s : Nat} (hc : c < 2 ^ 96) (hs : s ≤ 28) (h : r * 10 ^ s = c) :
    Rounds r c s where
  low := by rw [h]; linarith
  high := by rw [h]; linarith
  coefficient_lt := hc
  scale_le := hs
  full := .inl h

private theorem cast_le_of_lt {c : Nat} (h : c < 2 ^ 96) : (c : ℚ) ≤ 2 ^ 96 - 1 := by
  have hle : ((c + 1 : Nat) : ℚ) ≤ (2 ^ 96 : Nat) := by exact_mod_cast h
  push_cast at hle
  linarith

/-- A number that has a coefficient at some scale does not round to `2^96`. -/
theorem Near.lt {r : ℚ} {c s : Nat} (h : Near r c s) (hr : 0 ≤ r) (hc : c < 2 ^ 96) :
    r < 2 ^ 96 - 1 / 2 := by
  have hle := cast_le_of_lt hc
  have hpow : (1 : ℚ) ≤ 10 ^ s := one_le_pow₀ (by norm_num)
  calc r = r * 1 := (mul_one r).symm
    _ ≤ r * 10 ^ s := mul_le_mul_of_nonneg_left hpow hr
    _ < c + 1 / 2 := h.high
    _ ≤ 2 ^ 96 - 1 / 2 := by linarith

/-- What is kept is the number itself if and only if that fits. -/
theorem Rounds.exact_iff {r : ℚ} {c s : Nat} (h : Rounds r c s) :
    r * 10 ^ s = c ↔ ∃ c' s' : Nat, c' < 2 ^ 96 ∧ s' ≤ 28 ∧ r * 10 ^ s' = c' := by
  refine ⟨fun heq => ⟨c, s, h.coefficient_lt, h.scale_le, heq⟩, ?_⟩
  rintro ⟨c', s', hc', hs', heq⟩
  -- at a scale that is no finer than `s` the number is whole, and nothing is rounded
  have hcoarse (hle : s' ≤ s) : r * 10 ^ s = c := by
    have hwhole := mul_pow_eq_of_le heq hle
    rw [hwhole, h.toNear.eq_of_natCast hwhole]
  rcases h.full with hexact | hlast | ⟨-, hroom⟩
  · exact hexact
  · exact hcoarse (by omega)
  · rcases Nat.lt_or_ge s s' with hlt | hle
    · -- and a finer one has no room for it
      have hbound := cast_le_of_lt hc'
      have hr : 0 ≤ r := by
        by_contra hneg
        have hprod : r * 10 ^ (s + 1) ≤ 0 :=
          mul_nonpos_of_nonpos_of_nonneg (le_of_not_ge hneg) (by positivity)
        linarith [show (0 : ℚ) < 2 ^ 96 - 1 / 2 by norm_num]
      have hpow : (10 : ℚ) ^ (s + 1) ≤ 10 ^ s' := pow_le_pow_right₀ (by norm_num) hlt
      have hle := mul_le_mul_of_nonneg_left hpow hr
      rw [heq] at hle
      linarith
    · exact hcoarse hle

/-! ### Reading the digits

Before the point a digit without room is an error.  Behind the point it is the last digit that
is looked at, and it rounds what was taken before it.
-/

/-- What comes of reading the number `r`. -/
inductive Reading (r : ℚ) : Except Fault (Nat × Nat) → Prop
  | kept {c s : Nat} (h : Rounds r c s) : Reading r (.ok (c, s))
  | refused (h : 2 ^ 96 - 1 / 2 ≤ r) (fault : Fault) : Reading r (.error fault)

/-- The greatest coefficient has no successor, so its last digit is dropped as well. -/
theorem rounds_greatest {r : ℚ} {k : Nat} (hk : k ≤ 28) (hlow : 2 ^ 96 - 1 / 2 ≤ r * 10 ^ (k + 1))
    (hhigh : r * 10 ^ (k + 1) < 2 ^ 96) : Rounds r ((2 ^ 96 - 1 + 5) / 10) k := by
  have hten : r * 10 ^ (k + 1) = 10 * (r * 10 ^ k) := by ring
  have hcast : (((2 ^ 96 - 1 + 5) / 10 : Nat) : ℚ) = (2 ^ 96 + 4) / 10 := by norm_num
  refine ⟨⟨?_, ?_⟩, by decide, hk, .inr (.inr ⟨by decide, hlow⟩)⟩
  · rw [hcast]
    linarith
  · rw [hcast]
    linarith

/-- A number whose next digit `d` has no room is rounded by it. -/
theorem reading_roundOff {p : Progress} {d : Nat} {rest : List Char} {r : ℚ}
    (hcoefficient : p.coefficient < 2 ^ 96) (hscale : p.scale ≤ 28)
    (hrest : ∀ c ∈ rest, c.isDigit = true)
    (hlow : 10 * p.coefficient + d ≤ r * 10 ^ (p.scale + 1))
    (hhigh : r * 10 ^ (p.scale + 1) < 10 * p.coefficient + d + 1) (hd : d ≤ 9)
    (hroom : p.scale = 28 ∨ 2 ^ 96 ≤ 10 * p.coefficient + d) :
    Reading r (roundOff p d rest) := by
  obtain ⟨c, s, _, _⟩ := p
  dsimp only at *
  have hfind : (rest.find? fun c => !(c.isDigit || c == '_')) = none := by
    rw [List.find?_eq_none]
    intro c hc
    simp [hrest c hc]
  have hlimit : (1 <<< 96 : Nat) = 2 ^ 96 := by decide
  have hten : r * 10 ^ (s + 1) = 10 * (r * 10 ^ s) := by ring
  have hroom' (h : 2 ^ 96 ≤ 10 * c + d) : 2 ^ 96 - 1 / 2 ≤ r * 10 ^ (s + 1) := by
    have h' : (2 ^ 96 : ℚ) ≤ 10 * c + d := by exact_mod_cast h
    linarith
  rw [roundOff, hfind, hlimit]
  dsimp only
  by_cases hup : 5 ≤ d
  · have hup' : (5 : ℚ) ≤ d := by exact_mod_cast hup
    have hd' : (d : ℚ) ≤ 9 := by exact_mod_cast hd
    by_cases hover : 2 ^ 96 ≤ c + 1
    · obtain rfl : c = 2 ^ 96 - 1 := by omega
      have hcast : ((2 ^ 96 - 1 : Nat) : ℚ) = 2 ^ 96 - 1 := by norm_num
      rw [hcast] at hlow hhigh
      cases s with
      | zero =>
          rw [if_pos ⟨⟨hup, hover⟩, rfl⟩]
          rw [hten, pow_zero, mul_one] at hlow
          exact .refused (by linarith) _
      | succ k =>
          rw [if_neg (by simp), if_pos ⟨hup, hover⟩, Nat.add_sub_cancel]
          exact .kept (rounds_greatest (by omega) (by linarith) (by linarith))
    · rw [if_neg (by omega), if_neg (by omega), if_pos hup]
      refine .kept ⟨⟨?_, ?_⟩, by omega, hscale, .inr (hroom.imp id fun h => ⟨by omega, hroom' h⟩)⟩
      · push_cast
        linarith
      · push_cast
        linarith
  · have hup' : (d : ℚ) ≤ 4 := by exact_mod_cast (by omega : d ≤ 4)
    have hd' : (0 : ℚ) ≤ d := by positivity
    rw [if_neg (by omega), if_neg (by omega), if_neg hup]
    refine .kept ⟨⟨by linarith, by linarith⟩, hcoefficient, hscale, .inr (hroom.imp id fun h => ?_)⟩
    -- the limit ends in a six, so ten times the coefficient is past it without the digit
    exact ⟨by omega, hroom' h⟩

variable {r : ℚ} {c s : Nat} {ds : List Char}

private theorem readDigits_full {d : Char} (hd : d.isDigit = true) (started : Bool)
    (hfull : s = 28 ∨ 2 ^ 96 ≤ 10 * c + Text.digitValue d) (rest : List Char) :
    readDigits ⟨c, s, true, started⟩ (d :: rest) =
      roundOff ⟨c, s, true, started⟩ (Text.digitValue d) rest := by
  rw [readDigits, if_pos hd]
  dsimp only
  by_cases hscale : s = 28
  · rw [if_pos (by simp [hscale, maxScale])]
  · rw [if_neg (by simp [hscale, maxScale]), if_neg (by omega), if_pos rfl]

private theorem bounds_of_continued {m : Nat} (hdigits : ∀ d ∈ ds, d.isDigit = true)
    (hr : r * 10 ^ (s + ds.length) = continued m ds) : m ≤ r * 10 ^ s ∧ r * 10 ^ s < m + 1 := by
  have hpow : (0 : ℚ) < 10 ^ ds.length := by positivity
  have hlow := Text.pow_mul_le_continued m ds
  have hhigh := Text.continued_lt hdigits m
  rw [pow_add, ← mul_assoc] at hr
  rw [← Nat.cast_le (α := ℚ), ← hr, Nat.mul_comm] at hlow
  rw [← Nat.cast_lt (α := ℚ), ← hr, Nat.mul_comm] at hhigh
  push_cast at hlow hhigh
  exact ⟨le_of_mul_le_mul_right hlow hpow, lt_of_mul_lt_mul_right hhigh hpow.le⟩

/-- Digits that go on behind the point are taken while there is room. -/
theorem reading_fraction (hdigits : ∀ d ∈ ds, d.isDigit = true) (hc : c < 2 ^ 96) (hs : s ≤ 28)
    (hr : r * 10 ^ (s + ds.length) = continued c ds) {started : Bool}
    (hstarted : started = true ∨ ds ≠ []) : Reading r (readDigits ⟨c, s, true, started⟩ ds) := by
  induction ds generalizing c s started with
  | nil =>
      have hstarted' : started = true := hstarted.resolve_right fun h => h rfl
      rw [readDigits, if_pos hstarted']
      exact .kept (.of_eq hc hs hr)
  | cons d ds ih =>
      have hd : d.isDigit = true := hdigits d List.mem_cons_self
      have hds : ∀ c ∈ ds, c.isDigit = true := fun c hc => hdigits c (List.mem_cons_of_mem d hc)
      rw [Text.continued_cons, List.length_cons, Nat.add_comm ds.length, ← Nat.add_assoc] at hr
      by_cases hroom : s < 28 ∧ 10 * c + Text.digitValue d < 2 ^ 96
      · have htaken : (Progress.mk c s true started).HasRoom [d] :=
          ⟨hroom.2, fun _ => hroom.1, fun hwhole => by cases hwhole⟩
        have hnext : (Progress.mk c s true started).after [d] =
            ⟨10 * c + Text.digitValue d, s + 1, true, true⟩ := by
          simp [Progress.after, Text.continued_cons]
        rw [readDigits_cons hd htaken, hnext]
        exact ih hds hroom.2 hroom.1 hr (.inl rfl)
      · have hfull : s = 28 ∨ 2 ^ 96 ≤ 10 * c + Text.digitValue d := by omega
        obtain ⟨hlow, hhigh⟩ := bounds_of_continued hds hr
        push_cast at hlow hhigh
        rw [readDigits_full hd started hfull]
        exact reading_roundOff hc hs hds hlow hhigh (Text.digitValue_le hd) hfull

private theorem readDigits_beyond (hdigits : ∀ d ∈ ds, d.isDigit = true) (hc : c < 2 ^ 96)
    (h : 2 ^ 96 ≤ continued c ds) (started : Bool) (rest : List Char) :
    ∃ fault, readDigits ⟨c, 0, false, started⟩ (ds ++ rest) = .error fault := by
  induction ds generalizing c started with
  | nil => exact absurd hc (Nat.not_lt.mpr h)
  | cons d ds ih =>
      have hd : d.isDigit = true := hdigits d List.mem_cons_self
      have hds : ∀ c ∈ ds, c.isDigit = true := fun c hc => hdigits c (List.mem_cons_of_mem d hc)
      rw [Text.continued_cons] at h
      rw [List.cons_append, readDigits, if_pos hd]
      dsimp only
      rw [Bool.false_and, if_neg Bool.false_ne_true]
      split
      · rename_i hroom
        exact ih hds hroom h true
      · exact ⟨.tooManyDigits, by rw [if_neg Bool.false_ne_true]⟩

/-! ### Numerals without an exponent -/

/-- What may be written for a sign; true stands for minus. -/
inductive SignText : Bool → List Char → Prop
  | none : SignText false []
  | plus : SignText false ['+']
  | minus : SignText true ['-']

/-- At least one digit and at most one point, for the number `n / 10 ^ k`. -/
inductive DigitsText : Nat → Nat → List Char → Prop
  | whole {ds : List Char} (h : IsDigits ds) : DigitsText (Text.numeral ds) 0 ds
  | point {whole fraction : List Char} (h : IsDigits (whole ++ fraction)) :
      DigitsText (Text.numeral (whole ++ fraction)) fraction.length (whole ++ '.' :: fraction)

theorem SignText.eq_of_mem {negative : Bool} {s : List Char} (h : SignText negative s) {c : Char}
    (hc : c ∈ s) : c = '+' ∨ c = '-' := by
  cases h with
  | none => cases hc
  | plus => exact .inl (List.mem_singleton.mp hc)
  | minus => exact .inr (List.mem_singleton.mp hc)

theorem DigitsText.eq_of_mem {n k : Nat} {s : List Char} (h : DigitsText n k s) {c : Char}
    (hc : c ∈ s) : c = '.' ∨ c.isDigit = true := by
  cases h with
  | whole h => exact .inr (h.all c hc)
  | point h =>
      rcases List.mem_append.mp hc with hc | hc
      · exact .inr (h.all c (List.mem_append_left _ hc))
      · exact (List.mem_cons.mp hc).imp_right fun hc => h.all c (List.mem_append_right _ hc)

private theorem readDigits_run (hdigits : ∀ d ∈ ds, d.isDigit = true) (h : Text.numeral ds < 2 ^ 96)
    (rest : List Char) :
    readDigits ⟨0, 0, false, false⟩ (ds ++ rest) =
      readDigits ⟨Text.numeral ds, 0, false, !ds.isEmpty⟩ rest :=
  have hroom : (Progress.mk 0 0 false false).HasRoom ds := ⟨h, nofun, fun _ => rfl⟩
  readDigits_append hdigits hroom rest

theorem reading_digits {n k : Nat} {s : List Char} (h : DigitsText n k s) :
    Reading (n / 10 ^ k) (readDigits ⟨0, 0, false, false⟩ s) := by
  have hbeyond {m : Nat} (h : 2 ^ 96 ≤ m) : (2 ^ 96 - 1 / 2 : ℚ) ≤ m := by
    have hm : (2 ^ 96 : ℚ) ≤ m := by exact_mod_cast h
    linarith
  cases h with
  | whole h =>
      rw [pow_zero, div_one]
      by_cases hroom : Text.numeral s < 2 ^ 96
      · obtain ⟨d, ds, rfl, -⟩ := h.exists_cons
        have hread := readDigits_run h.all hroom []
        rw [List.append_nil] at hread
        rw [hread, List.isEmpty_cons, readDigits, if_pos Bool.not_false]
        exact .kept (.of_eq hroom (Nat.zero_le _) (by rw [pow_zero, mul_one]))
      · obtain ⟨fault, hfault⟩ :=
          readDigits_beyond h.all (by decide) (Nat.le_of_not_lt hroom) false []
        rw [List.append_nil] at hfault
        rw [hfault]
        exact .refused (hbeyond (Nat.le_of_not_lt hroom)) fault
  | @point whole fraction h =>
      have hwhole : ∀ d ∈ whole, d.isDigit = true :=
        fun d hd => h.all d (List.mem_append_left fraction hd)
      have hfraction : ∀ d ∈ fraction, d.isDigit = true :=
        fun d hd => h.all d (List.mem_append_right whole hd)
      have hvalue : Text.numeral (whole ++ fraction) = continued (Text.numeral whole) fraction :=
        Text.continued_append 0 whole fraction
      by_cases hroom : Text.numeral whole < 2 ^ 96
      · have hpoint : readDigits ⟨Text.numeral whole, 0, false, !whole.isEmpty⟩
            ('.' :: fraction) =
            readDigits ⟨Text.numeral whole, 0, true, !whole.isEmpty⟩ fraction := by
          rw [readDigits, if_neg (by decide), if_neg (by simp), if_pos (by simp)]
        rw [readDigits_run hwhole hroom, hpoint]
        refine reading_fraction hfraction hroom (Nat.zero_le _) ?_ ?_
        · rw [Nat.zero_add, div_mul_cancel₀ _ (by positivity), hvalue]
        · cases whole with
          | nil => exact .inr h.ne_nil
          | cons d ds => exact .inl rfl
      · obtain ⟨fault, hfault⟩ :=
          readDigits_beyond hwhole (by decide) (Nat.le_of_not_lt hroom) false ('.' :: fraction)
        rw [hfault]
        refine .refused ((hbeyond (Nat.le_of_not_lt hroom)).trans ?_) fault
        rw [le_div_iff₀ (by positivity), mul_comm]
        exact_mod_cast hvalue ▸ Text.pow_mul_le_continued (Text.numeral whole) fraction

/-- What comes of reading a numeral without an exponent for the number `r` with this sign. -/
inductive PlainReading (negative : Bool) (r : ℚ) : Except Fault Decimal → Prop
  | kept {d : Decimal} (h : Rounds r d.coefficient d.scale)
      (hsign : d.negative = negative ∨ d.coefficient = 0) : PlainReading negative r (.ok d)
  | refused (h : 2 ^ 96 - 1 / 2 ≤ r) (fault : Fault) : PlainReading negative r (.error fault)

theorem DigitsText.front {n k : Nat} {s : List Char} (h : DigitsText n k s) :
    ∃ c cs, s = c :: cs ∧ (c.isDigit = true ∨ c = '.') := by
  cases h with
  | whole h =>
      obtain ⟨d, ds, rfl, hd⟩ := h.exists_cons
      exact ⟨d, ds, rfl, .inl hd⟩
  | @point whole fraction h =>
      cases whole with
      | nil => exact ⟨'.', fraction, rfl, .inr rfl⟩
      | cons d ds => exact ⟨d, _, rfl, .inl (h.all d List.mem_cons_self)⟩

theorem splitSign_signText {negative : Bool} {sign : List Char} (h : SignText negative sign)
    {n k : Nat} {digits : List Char} (hdigits : DigitsText n k digits) (rest : List Char) :
    Text.splitSign (sign ++ (digits ++ rest)) = (negative, digits ++ rest) := by
  cases h with
  | none =>
      obtain ⟨c, cs, rfl, hc | rfl⟩ := hdigits.front
      · exact Text.splitSign_of_isDigit hc (cs ++ rest)
      · rfl
  | plus => rfl
  | minus => rfl

section

variable {negative : Bool} {sign : List Char} (hsign : SignText negative sign) {n k : Nat}
  {digits : List Char} (hdigits : DigitsText n k digits) {rest : List Char}

include hsign hdigits

theorem readPlain_eq_error {fault : Fault}
    (h : readDigits ⟨0, 0, false, false⟩ (digits ++ rest) = .error fault) :
    readPlain (sign ++ (digits ++ rest)) = .error fault := by
  have hsplit := splitSign_signText hsign hdigits rest
  obtain ⟨c, cs, hcons⟩ : ∃ c cs, sign ++ (digits ++ rest) = c :: cs := by
    obtain ⟨c, cs, rfl, -⟩ := hdigits.front
    exact List.exists_cons_of_ne_nil (by simp)
  rw [hcons] at hsplit ⊢
  simp only [readPlain, hsplit, h]

theorem readPlain_eq_ok {c s : Nat}
    (h : readDigits ⟨0, 0, false, false⟩ (digits ++ rest) = .ok (c, s)) (hc : c < 2 ^ 96)
    (hs : s ≤ 28) :
    readPlain (sign ++ (digits ++ rest)) = .ok ⟨negative && c != 0, c, s, hc, hs⟩ := by
  have hsplit := splitSign_signText hsign hdigits rest
  have hparts : ofParts? (negative && c != 0) c s = some ⟨negative && c != 0, c, s, hc, hs⟩ :=
    dif_pos ⟨hc, hs⟩
  obtain ⟨c', cs, hcons⟩ : ∃ c' cs, sign ++ (digits ++ rest) = c' :: cs := by
    obtain ⟨c', cs, rfl, -⟩ := hdigits.front
    exact List.exists_cons_of_ne_nil (by simp)
  rw [hcons] at hsplit ⊢
  simp only [readPlain, hsplit, h, hparts]

/-- A numeral is kept as far as there is room, or else its number is too great. -/
theorem plainReading : PlainReading negative (n / 10 ^ k) (readPlain (sign ++ digits)) := by
  have hreading := reading_digits hdigits
  rw [← List.append_nil digits]
  cases hresult : readDigits ⟨0, 0, false, false⟩ digits with
  | error fault =>
      rw [hresult] at hreading
      rw [← List.append_nil digits] at hresult
      rw [readPlain_eq_error hsign hdigits hresult]
      cases hreading with
      | refused h => exact .refused h fault
  | ok parts =>
      rw [hresult] at hreading
      rw [← List.append_nil digits] at hresult
      cases hreading with
      | @kept c s h =>
          rw [readPlain_eq_ok hsign hdigits hresult h.coefficient_lt h.scale_le]
          refine .kept h ?_
          by_cases hzero : c = 0
          · exact .inr hzero
          · exact .inl (by simp [hzero])

end

end Decimal

end FilterSelect
