/-
Scalars that pass through without a converter.

A column type that no converter is registered for takes a scalar as it is: a string stays
the same string, a truth value the same truth value, and a number becomes a word of 64 bits
or a double.  `Value.Denotes` says which values are the same scalar as a JSON value, for
numbers by what they are worth.

A number of JSON is a word without a sign, a negative word or a double.  Doubles and the
numbers below `2^63` are kept.  The words from `2^63` on have no value of their own and are
rounded to a double, whose last place is worth 2048 there; so those that 2048 divides are
kept as well, and every other one becomes a different number (`value_ofInt_iff`).
-/
import FilterSelect.Proofs.Json.Integers
import FilterSelect.Value.Converters

namespace FilterSelect

/-! ### What scalars are worth -/

namespace Json

/-- The number that a JSON number is. -/
def Number.value : Number → ℚ
  | .integer n _ => n
  | .float x => x.value

/-- Whether a JSON value is no array and no object. -/
def isScalar : Json → Bool
  | .array _ | .object _ => false
  | _ => true

/-- A word past the signed ones that is no double. -/
def PastDoubles : Json → Prop
  | .number (.integer n _) => 2 ^ 63 ≤ n ∧ ¬ 2048 ∣ n
  | _ => False

/-- Two JSON values are the same scalar, numbers if they are worth the same. -/
inductive SameScalar : Json → Json → Prop
  | refl (raw : Json) : SameScalar raw raw
  | number {n m : Number} (h : n.value = m.value) : SameScalar (.number n) (.number m)

end Json

/-- A value is the same scalar as a JSON value. -/
inductive Value.Denotes : Value → Json → Prop
  | null : Denotes .null .null
  | bool (b : Bool) : Denotes (.bool b) (.bool b)
  | string (s : String) : Denotes (.string s) (.string s)
  | integer {i : Int64} {n : Json.Number} (h : (i.toInt : ℚ) = n.value) :
      Denotes (.integer i) (.number n)
  | float {x : Binary64} {n : Json.Number} (h : x.value = n.value) : Denotes (.float x) (.number n)

theorem Value.Denotes.sameScalar {v : Value} {raw raw' : Json} (h : v.Denotes raw)
    (h' : v.Denotes raw') : raw.SameScalar raw' := by
  cases h with
  | null => cases h'; exact .refl _
  | bool b => cases h'; exact .refl _
  | string s => cases h'; exact .refl _
  | integer h => cases h' with
    | integer h' => exact .number (h.symm.trans h')
  | float h => cases h' with
    | float h' => exact .number (h.symm.trans h')

/-! ### Words past the signed ones

A word of 64 bits has at most eleven binary digits more than a double keeps.
-/

namespace Binary64

/-- A word is in the finite range, so it is rounded to the nearest double. -/
theorem ofRatio?_word {n : Nat} (hpos : 0 < n) (h : n < 2 ^ 64) :
    ofRatio? false n 1 = some (ofInt n) := by
  have hsmall : (n : ℚ) / (1 : Nat) < 2 ^ 1023 := by
    have hword : (n : ℚ) < 2 ^ 64 := by exact_mod_cast h
    rw [Nat.cast_one, div_one]
    exact hword.trans (pow_lt_pow_right₀ (by norm_num) (by norm_num))
  obtain ⟨y, hy⟩ := exists_ofRatio? false hpos Nat.one_pos hsmall
  have hsign : decide ((n : ℤ) < 0) = false := by simp
  rw [ofInt, hsign, Int.natAbs_natCast, hy, Option.getD_some]

theorem value_ofInt_word {n : Nat} (hpos : 0 < n) (h : n < 2 ^ 64) :
    (ofInt n).value = (ofInt n).magnitude := by
  obtain ⟨hsign, -⟩ := ofRatio?_spec hpos Nat.one_pos (ofRatio?_word hpos h)
  rw [value, hsign, if_neg Bool.false_ne_true]

/-- In the last binade of words, the doubles are the multiples of 2048. -/
theorem value_ofInt_iff {n : Nat} (hlow : 2 ^ 63 ≤ n) (hhigh : n < 2 ^ 64) :
    (ofInt n).value = n ↔ 2048 ∣ n := by
  have hpos : 0 < n := by omega
  have hy := ofRatio?_word hpos hhigh
  rw [value_ofInt_word hpos hhigh]
  constructor
  · intro hexact
    rcases Nat.eq_or_lt_of_le hlow with rfl | hpast
    · decide
    · obtain ⟨-, hrounded⟩ := ofRatio?_spec hpos Nat.one_pos hy
      rw [Json.Numeral.place_word hpast hhigh, hexact] at hrounded
      refine ⟨rounded n 1, ?_⟩
      have hvalue : (n : ℚ) = (2048 * rounded n 1 : Nat) := by
        rw [hrounded]
        push_cast
        ring
      exact_mod_cast hvalue
  · rintro ⟨m, rfl⟩
    have hm : m < 2 ^ 53 := by omega
    have hsame : (m : ℚ) * 2 ^ (11 : ℤ) = ((2048 * m : Nat) : ℚ) / (1 : Nat) := by
      push_cast
      norm_num
      ring
    have hle := le_magnitude hpos Nat.one_pos hy hm (by norm_num) hsame.le
    have hge := magnitude_le hpos Nat.one_pos hy hm (by norm_num) hsame.ge
    rw [le_antisymm hge hle, hsame, Nat.cast_one, div_one]

end Binary64

/-! ### Passing through

A number is tried as a signed word first, and only then made a double.
-/

namespace Value

private theorem ofScalar_word {n : Int} {i : Int64} (h : Integer64.ofInt? n = some i)
    (hn : -(1 <<< 63) ≤ n ∧ n < 1 <<< 64) :
    ofScalar (.number (.integer n hn)) = .ok (.integer i) := by
  simp only [ofScalar, Json.Number.toInt64?, h]

private theorem ofScalar_past {n : Int} (h : Integer64.ofInt? n = none)
    (hn : -(1 <<< 63) ≤ n ∧ n < 1 <<< 64) :
    ofScalar (.number (.integer n hn)) = .ok (.float (Binary64.ofInt n)) := by
  simp only [ofScalar, Json.Number.toInt64?, h, Json.Number.toBinary64]

private theorem denotes_float_iff {x : Binary64} {n : Json.Number} :
    Denotes (.float x) (.number n) ↔ x.value = n.value :=
  ⟨fun h => by cases h; assumption, .float⟩

private theorem pastDoubles_iff {n : Int} (hn : -(1 <<< 63) ≤ n ∧ n < 1 <<< 64) :
    Json.PastDoubles (.number (.integer n hn)) ↔ 2 ^ 63 ≤ n ∧ ¬ 2048 ∣ n := Iff.rfl

/-- A number is kept, but for words that are no double. -/
theorem ofScalar_number (n : Json.Number) :
    ∃ v, ofScalar (.number n) = .ok v ∧
      (v.Denotes (.number n) ↔ ¬ Json.PastDoubles (.number n)) := by
  cases n with
  | float x => exact ⟨.float x, rfl, fun _ h => h, fun _ => .float rfl⟩
  | integer n hn =>
      rw [pastDoubles_iff]
      cases hword : Integer64.ofInt? n with
      | some i =>
          obtain rfl := Integer64.ofInt?_eq_some_iff.mp hword
          have hlt := Int64.toInt_lt i
          refine ⟨.integer i, ofScalar_word hword hn, fun _ hpast => ?_, fun _ => .integer rfl⟩
          omega
      | none =>
          have hlarge : 2 ^ 63 ≤ n := by
            by_contra hsmall
            rw [Integer64.ofInt?, if_pos ⟨hn.1, by omega⟩] at hword
            cases hword
          refine ⟨.float (Binary64.ofInt n), ofScalar_past hword hn, ?_⟩
          obtain ⟨k, rfl⟩ := Int.eq_ofNat_of_zero_le (show 0 ≤ n by omega)
          have hiff := Binary64.value_ofInt_iff (n := k) (by omega) (by omega)
          rw [denotes_float_iff, Json.Number.value, Int.cast_natCast, hiff]
          omega

theorem exists_ofScalar {raw : Json} (h : raw.isScalar = true) :
    ∃ v, ofScalar raw = .ok v ∧ (v.Denotes raw ↔ ¬ raw.PastDoubles) := by
  cases raw with
  | null => exact ⟨.null, rfl, fun _ hpast => hpast, fun _ => .null⟩
  | bool b => exact ⟨.bool b, rfl, fun _ hpast => hpast, fun _ => .bool b⟩
  | string s => exact ⟨.string s, rfl, fun _ hpast => hpast, fun _ => .string s⟩
  | number n => exact ofScalar_number n
  | array items => cases h
  | object members => cases h

private theorem ofScalar_composite {raw : Json} (h : raw.isScalar = false) :
    ofScalar raw = .error .notScalar := by
  cases raw with
  | array items => rfl
  | object members => rfl
  | _ => cases h

end Value

namespace Converters

variable {given : Option Converters} {type : ColumnType}

/--
**What no converter is registered for passes through as it is, but for words that are no
double.**

For a column type without a converter every scalar is accepted, and the value is the same
scalar if and only if it is not one of the words from `2^63` on that 2048 does not divide.
Two scalars that become one value are therefore the same scalar, as long as neither is such
a word.  Arrays and objects are refused.
-/
theorem convert_unconverted (h : (orBuiltIn given).find? type = none) (clock : DateTime) :
    (∀ raw, raw.isScalar = true →
      ∃ v, convert given clock type raw = .ok v ∧ (v.Denotes raw ↔ ¬ raw.PastDoubles)) ∧
    (∀ raw raw' v, ¬ raw.PastDoubles → ¬ raw'.PastDoubles →
      convert given clock type raw = .ok v → convert given clock type raw' = .ok v →
        raw.SameScalar raw') ∧
    ∀ raw, raw.isScalar = false → convert given clock type raw = .error .notScalar := by
  have hconvert (raw : Json) : convert given clock type raw = Value.ofScalar raw := by
    rw [convert, h]
  have hdenotes {raw : Json} {v : Value} (hpast : ¬ raw.PastDoubles)
      (hv : Value.ofScalar raw = .ok v) : v.Denotes raw := by
    cases hscalar : raw.isScalar with
    | false =>
        rw [Value.ofScalar_composite hscalar] at hv
        cases hv
    | true =>
        obtain ⟨w, hw, hiff⟩ := Value.exists_ofScalar hscalar
        obtain rfl := Except.ok.inj (hv.symm.trans hw)
        exact hiff.mpr hpast
  refine ⟨?_, ?_, ?_⟩
  · intro raw hscalar
    rw [hconvert]
    exact Value.exists_ofScalar hscalar
  · intro raw raw' v hpast hpast' hv hv'
    rw [hconvert] at hv hv'
    exact (hdenotes hpast hv).sameScalar (hdenotes hpast' hv')
  · intro raw hcomposite
    rw [hconvert]
    exact Value.ofScalar_composite hcomposite

/-- The greatest word that is a double is kept. -/
theorem convert_greatestDouble :
    ∃ v, convert none ⟨⟨1970, 1, 1, by decide⟩, Time.midnight⟩ .text
        (.number (.integer 18446744073709549568 ⟨by decide, by decide⟩)) = .ok v ∧
      v.Denotes (.number (.integer 18446744073709549568 ⟨by decide, by decide⟩)) := by
  have hnone : (orBuiltIn none).find? .text = none := rfl
  obtain ⟨hscalars, -⟩ := convert_unconverted hnone ⟨⟨1970, 1, 1, by decide⟩, Time.midnight⟩
  obtain ⟨v, hv, hiff⟩ := hscalars
    (.number (.integer 18446744073709549568 ⟨by decide, by decide⟩)) rfl
  refine ⟨v, hv, hiff.mpr ?_⟩
  rw [Value.pastDoubles_iff]
  decide

/-- The word after `2^63` becomes the same value as `2^63`, which it is not. -/
theorem convert_afterRange :
    ∃ v, convert none ⟨⟨1970, 1, 1, by decide⟩, Time.midnight⟩ .text
        (.number (.integer 9223372036854775809 ⟨by decide, by decide⟩)) = .ok v ∧
      convert none ⟨⟨1970, 1, 1, by decide⟩, Time.midnight⟩ .text
        (.number (.integer 9223372036854775808 ⟨by decide, by decide⟩)) = .ok v ∧
      ¬ v.Denotes (.number (.integer 9223372036854775809 ⟨by decide, by decide⟩)) := by
  refine ⟨.float (Binary64.ofInt 9223372036854775809), rfl, ?_, ?_⟩
  · have hsame : Binary64.ofInt 9223372036854775808 = Binary64.ofInt 9223372036854775809 := by
      decide +kernel
    rw [← hsame]
    rfl
  · have hiff := Binary64.value_ofInt_iff (n := 9223372036854775809) (by decide) (by decide)
    rw [Value.denotes_float_iff]
    intro hexact
    exact absurd (hiff.mp (by simpa [Json.Number.value] using hexact)) (by decide)

end Converters

end FilterSelect
