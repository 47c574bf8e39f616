/-
What decimal constants are read as.

A decimal constant is a numeral, written in a string with white space around it or as a JSON
number, whose own text is a numeral too.  It becomes the decimal that it writes wherever
there is one, with two exceptions that lie in reading the base first: an exponent of more
than 28 is refused, and a base that is no decimal has been rounded before the exponent is
looked at.  JSON numbers do not know the second exception, for their bases are short.

A numeral with more digits behind the point than there is room for is rounded and not
refused.  The first number to which that happens is half of the last place of all, which is
read as that whole place.
-/
import FilterSelect.Proofs.Number.Shortest
import FilterSelect.Proofs.Value.RoundTrip

namespace FilterSelect

open Decimal (DigitsText ExponentText Fits InRange NumeralText magnitude signed)
open Text (IsBlankRun IsTight)

/-- A numeral for `base * 10 ^ power` is written in this JSON value. -/
inductive Json.WritesNumeral (base : ℚ) (power : ℤ) : Json → Prop
  | string {before s after : List Char} (hbefore : IsBlankRun before)
      (h : NumeralText base power s) (hafter : IsBlankRun after) :
      WritesNumeral base power (.string (String.ofList (before ++ s ++ after)))
  | number {n : Json.Number} (h : NumeralText base power n.text) :
      WritesNumeral base power (.number n)

/-! ### Numerals have no white space in them -/

private theorem Text.isTight_of_forall {s : List Char} (hne : s ≠ [])
    (h : ∀ c ∈ s, isBlank c = false) : IsTight s where
  head := ⟨s.head hne, List.head?_eq_some_head hne, h _ (List.head_mem hne)⟩
  last := ⟨s.getLast hne, List.getLast?_eq_some_getLast hne, h _ (List.getLast_mem hne)⟩

namespace Decimal

variable {c : Char} {s : List Char}

private theorem SignText.not_blank {negative : Bool} (h : SignText negative s) (hc : c ∈ s) :
    Text.isBlank c = false := by
  rcases h.eq_of_mem hc with rfl | rfl <;> decide

private theorem DigitsText.not_blank {n k : Nat} (h : DigitsText n k s) (hc : c ∈ s) :
    Text.isBlank c = false := by
  rcases h.eq_of_mem hc with rfl | hc
  · decide
  · exact Text.isBlank_of_isDigit hc

private theorem ExponentText.not_blank {power : ℤ} (h : ExponentText power s) (hc : c ∈ s) :
    Text.isBlank c = false := by
  cases h with
  | none => cases hc
  | power hmark hsign h =>
      rcases List.mem_cons.mp hc with rfl | hc
      · rcases hmark with rfl | rfl <;> decide
      · rcases List.mem_append.mp hc with hc | hc
        · exact hsign.not_blank hc
        · exact Text.isBlank_of_isDigit (h.all c hc)

theorem NumeralText.isTight {base : ℚ} {power : ℤ} (h : NumeralText base power s) : IsTight s := by
  obtain ⟨hsign, hdigits, hexponent⟩ := h
  refine Text.isTight_of_forall ?_ fun c hc => ?_
  · obtain ⟨c, cs, rfl, -⟩ := hdigits.front
    simp
  · rcases List.mem_append.mp hc with hc | hc
    · exact hsign.not_blank hc
    · rcases List.mem_append.mp hc with hc | hc
      · exact hdigits.not_blank hc
      · exact hexponent.not_blank hc

end Decimal

/-! ### Numerals in JSON values

A string is trimmed before it is read, and a number is read from the text that it is written
as.
-/

namespace Value

theorem readDecimal_eq {base : ℚ} {power : ℤ} {raw : Json} (h : raw.WritesNumeral base power) :
    ∃ s, NumeralText base power s ∧ readDecimal raw =
      match Decimal.read s with
      | .ok d => .ok d
      | .error fault => .error (.decimal fault) := by
  cases h with
  | @string before s after hbefore h hafter =>
      refine ⟨s, h, ?_⟩
      show readTextWith Decimal.read .decimal (.string _) = _
      rw [readTextWith, readText, String.toList_ofList, Text.trim_eq hbefore hafter h.isTight]
      dsimp only
      cases Decimal.read s with
      | ok d => rfl
      | error fault => rfl
  | @number n h => exact ⟨n.text, h, rfl⟩

/--
**A decimal constant is read exactly wherever a decimal can be that number, and close by or
not at all elsewhere.**

A numeral for `base * 10 ^ power` is read if and only if its exponent is at most 28 in size
and neither its base nor its number would round to `2^96`.  What it is read as differs from
the number by at most 11/20 of the last place, and is the number itself if and only if both
the base and the number have a coefficient below `2^96` at a scale of at most 28.

Every JSON number is written as a numeral, and its base always has one.
-/
theorem readDecimal_numeral :
    (∀ base power raw, Json.WritesNumeral base power raw →
      ((∃ d, readDecimal raw = .ok d) ↔ InRange base power) ∧
      ∀ d, readDecimal raw = .ok d →
        |d.value - base * 10 ^ power| ≤ 11 / 20 / 10 ^ d.scale ∧
        (d.value = base * 10 ^ power ↔ Fits base ∧ Fits (base * 10 ^ power))) ∧
    ∀ n, ∃ base power, Json.WritesNumeral base power (.number n) ∧ Fits base := by
  constructor
  · intro base power raw h
    obtain ⟨s, hs, heq⟩ := readDecimal_eq h
    have houtcome := Decimal.outcome_read hs
    rw [heq]
    generalize Decimal.read s = result at houtcome
    cases houtcome with
    | read hrange hnear hexact =>
        refine ⟨⟨fun _ => hrange, fun _ => ⟨_, rfl⟩⟩, ?_⟩
        rintro _ ⟨rfl⟩
        exact ⟨hnear, hexact⟩
    | refused hbeyond fault =>
        exact ⟨⟨nofun, fun hrange => absurd hrange hbeyond⟩, nofun⟩
  · intro n
    obtain ⟨base, power, htext, hfits⟩ := n.exists_numeralText
    exact ⟨base, power, .number htext, hfits⟩

/-- The exponent moves two of the three digits behind the point before it. -/
theorem readDecimal_hundreds :
    ∃ d, readDecimal (.string " -12.345E+2\n") = .ok d ∧ d.value = -1234.5 := by
  have hdigits : DigitsText 12345 3 "12.345".toList :=
    @DigitsText.point ['1', '2'] ['3', '4', '5'] ⟨nofun, List.all_eq_true.mp rfl⟩
  have hexponent : ExponentText 2 "E+2".toList :=
    @ExponentText.power 'E' (.inr rfl) false _ .plus ['2'] ⟨nofun, List.all_eq_true.mp rfl⟩
  have hspace : IsBlankRun [' '] := List.all_eq_true.mp rfl
  have hline : IsBlankRun ['\n'] := List.all_eq_true.mp rfl
  have hwrites : Json.WritesNumeral (signed true ((12345 : Nat) / 10 ^ 3)) 2
      (.string " -12.345E+2\n") := .string hspace (.mk .minus hdigits hexponent) hline
  have hrange : InRange (signed true ((12345 : Nat) / 10 ^ 3)) 2 := by
    constructor <;> norm_num [signed, abs_of_pos]
  have hbase : Fits (signed true ((12345 : Nat) / 10 ^ 3)) :=
    ⟨⟨true, 12345, 3, by decide, by decide⟩, rfl⟩
  have hnumber : Fits (signed true ((12345 : Nat) / 10 ^ 3) * 10 ^ (2 : ℤ)) :=
    ⟨⟨true, 12345, 1, by decide, by decide⟩, by norm_num [Decimal.value, magnitude, signed]⟩
  obtain ⟨hread, hexact⟩ := readDecimal_numeral.1 _ _ _ hwrites
  obtain ⟨d, hd⟩ := hread.mpr hrange
  refine ⟨d, hd, ?_⟩
  rw [(hexact d hd).2.mpr ⟨hbase, hnumber⟩]
  norm_num [signed]

/-- Half of the last place is read as a whole one. -/
theorem readDecimal_pastLastPlace :
    ∃ d, Json.WritesNumeral (5 / 10 ^ 29) 0 (.string "0.00000000000000000000000000005") ∧
      readDecimal (.string "0.00000000000000000000000000005") = .ok d ∧ d.value ≠ 5 / 10 ^ 29 := by
  have hdigits : DigitsText 5 29 "0.00000000000000000000000000005".toList :=
    @DigitsText.point ['0'] (List.replicate 28 '0' ++ ['5']) ⟨nofun, List.all_eq_true.mp rfl⟩
  refine ⟨⟨false, 1, 28, by decide, by decide⟩, ?_, by rfl, ?_⟩
  · have hblank : IsBlankRun [] := nofun
    have hwrites := Json.WritesNumeral.string hblank (.mk .none hdigits .none) hblank
    exact hwrites
  · norm_num [Decimal.value, magnitude, signed]

end Value

end FilterSelect
