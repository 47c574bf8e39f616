/-
What becomes of an integer constant.

A query can give an integer as a number token or as its digits in a string.  The digits
are read one by one, so the string becomes the integer or is refused.  The token is the
integer itself where 64 bits hold it.  Past them it is a double by the time the converter
sees it, and the converter asks whether the double is an integer of 64 bits.

The answer is no for every token above the range, because its double is `2^63` at least and
the upper bound is left out.  The lower bound is not: `-2^63` belongs to the range, and the
tokens next below it are rounded to exactly that double.  These are the only integers that
the two ways to write them tell apart, and the only ones that become another integer.
-/
import FilterSelect.Operator
import FilterSelect.Proofs.Json.Integers
import FilterSelect.Proofs.Value.RoundTrip

namespace FilterSelect

/-- What comes of an integer constant: the same integer, or a refusal if 64 bits do not hold it. -/
inductive Operator.Keeps (z : Int) : Except Fault (Option Value) → Prop
  | native (i : Int64) (h : i.toInt = z) : Keeps z (.ok (some (.integer i)))
  | refused (raw : Json) (type : ColumnType) (refusal : Refusal)
      (h : ¬ (-(1 <<< 63) ≤ z ∧ z < 1 <<< 63)) : Keeps z (.error (.conversion raw type refusal))

namespace Value

open Json (Numeral)

/-! ### Number tokens

Past 64 bits a token is a double, and the magnitude of that double says what it is read as.
-/

/-- A double past the range is no integer of 64 bits; of the two bounds the lower one belongs to
it. -/
theorem integerOf?_float_eq_none {y : Binary64} (hlarge : 2 ^ 63 ≤ y.magnitude)
    (hbound : y.magnitude = 2 ^ 63 → y.negative = false) : integerOf? (.float y) = none := by
  rw [integerOf?]
  cases hint : y.toInt? with
  | none => rfl
  | some i =>
      obtain ⟨m, hm, rfl⟩ := Binary64.magnitude_of_toInt? hint
      rw [hm] at hlarge hbound
      have hlarge' : 2 ^ 63 ≤ m := by exact_mod_cast hlarge
      rw [Option.bind_some, Integer64.ofInt?, if_neg]
      rcases Nat.eq_or_lt_of_le hlarge' with rfl | hpast
      · rw [hbound (by norm_num)]
        decide
      · split <;> omega

private theorem integerOf?_float_eq_least {y : Binary64} (hmagnitude : y.magnitude = 2 ^ 63)
    (hnegative : y.negative = true) : integerOf? (.float y) = some (Int64.ofInt (-(1 <<< 63))) := by
  have hmagnitude' : y.magnitude = (2 ^ 63 : Nat) := by rw [hmagnitude]; norm_num
  rw [integerOf?, Binary64.toInt?_of_magnitude hmagnitude', hnegative]
  rfl

/-- A token is read as its integer, or as the least one if its double is that. -/
theorem integerOf?_token {z : Int} {n : Json.Number} (h : (Numeral.ofInt z).toNumber? = some n) :
    (RoundsIntoRange z → integerOf? n = some (Int64.ofInt (-(1 <<< 63)))) ∧
      (¬ RoundsIntoRange z → integerOf? n = Integer64.ofInt? z) := by
  unfold RoundsIntoRange
  by_cases hfits : -(1 <<< 63) ≤ z ∧ z < 1 <<< 64
  · rw [Numeral.toNumber?_of_fits hfits] at h
    cases h
    exact ⟨fun hband => by omega, fun _ => rfl⟩
  · rw [Numeral.toNumber?_of_not_fits hfits, Option.map_eq_some_iff] at h
    obtain ⟨y, hy, rfl⟩ := h
    have hlarge : 2 ^ 63 < z.natAbs := by omega
    obtain ⟨hnegative, hdown, hup⟩ := Numeral.magnitude_of_digits hlarge hy
    have hfar : 2 ^ 63 + 1024 < z.natAbs → y.magnitude ≠ 2 ^ 63 := fun hpast =>
      (hup hpast).ne'
    constructor
    · intro hband
      refine integerOf?_float_eq_least (hdown (by omega)) ?_
      rw [hnegative, decide_eq_true_eq]
      omega
    · intro hband
      have hnone : Integer64.ofInt? z = none := if_neg (by omega)
      rw [hnone]
      refine integerOf?_float_eq_none ?_ ?_
      · rcases Nat.lt_or_ge (2 ^ 63 + 1024) z.natAbs with hpast | hnear
        · exact (hup hpast).le
        · exact (hdown hnear).ge
      · intro hequal
        rw [hnegative, decide_eq_false_iff_not]
        intro hz
        exact hfar (by omega) hequal

/-! ### Digits in strings -/

private theorem readInteger_string (s : String) :
    readInteger (.string s) = readTextWith Integer64.read .integer (.string s) := rfl

private theorem readInteger_digits {z : Int} {i : Int64} (h : Integer64.ofInt? z = some i) :
    readInteger (.string (String.ofList (Text.signedDigits z))) = .ok i := by
  have hnil : Text.IsBlankRun [] := nofun
  have hread : readTextWith Integer64.read Refusal.integer
      (.string (String.ofList ([] ++ Text.signedDigits z ++ []))) = .ok i :=
    readTextWith_eq hnil hnil (Integer64.isTight_signedDigits z) (Integer64.read_signedDigits h)
  rw [readInteger_string]
  rwa [List.nil_append, List.append_nil] at hread

theorem readInteger_digits_beyond {z : Int} (h : Integer64.ofInt? z = none) :
    readInteger (.string (String.ofList (Text.signedDigits z))) =
      .error (.integer (if z < 0 then .tooSmall else .tooLarge)) := by
  have htext : readText (.string (String.ofList (Text.signedDigits z))) =
      .ok (Text.signedDigits z) := by
    rw [readText, String.toList_ofList, trim_of_isTight (Integer64.isTight_signedDigits z)]
  rw [readInteger_string, readTextWith, htext]
  simp only [Integer64.read_signedDigits_beyond h]

end Value

namespace Operator

/-! ### Columns of integers

All three types of integers find one converter, which is the reader of integers.
-/

variable {given : Option Converters} {clock : DateTime} {type : ColumnType} {raw : Json}

theorem valueFor_integer (hgiven : Converters.orBuiltIn given = Converters.builtIn)
    (htype : type.isA .integer = true) {i : Int64} (h : Value.readInteger raw = .ok i) :
    valueFor given clock type raw = .ok (some (.integer i)) := by
  have hconvert : Converters.convert given clock type raw = .ok (.integer i) := by
    rw [Converters.convert_eq hgiven (Converters.find?_integer htype), h]
    rfl
  unfold valueFor
  split
  · cases h
  · rw [hconvert]

theorem valueFor_integer_error (hgiven : Converters.orBuiltIn given = Converters.builtIn)
    (htype : type.isA .integer = true) {refusal : Refusal}
    (h : Value.readInteger raw = .error refusal) (hnull : raw ≠ .null) :
    valueFor given clock type raw = .error (.conversion raw type refusal) := by
  have hconvert : Converters.convert given clock type raw = .error refusal := by
    rw [Converters.convert_eq hgiven (Converters.find?_integer htype), h]
    rfl
  unfold valueFor
  split
  · exact absurd rfl hnull
  · rw [hconvert]

/-- What is read as an integer is kept if it has a word of its own and is refused otherwise. -/
theorem keeps_of_readInteger (hgiven : Converters.orBuiltIn given = Converters.builtIn)
    (htype : type.isA .integer = true) (hnull : raw ≠ .null) {z : Int}
    (hsome : ∀ i, Integer64.ofInt? z = some i → Value.readInteger raw = .ok i)
    (hnone : Integer64.ofInt? z = none → ∃ refusal, Value.readInteger raw = .error refusal) :
    Keeps z (valueFor given clock type raw) := by
  cases hword : Integer64.ofInt? z with
  | some i =>
      rw [valueFor_integer hgiven htype (hsome i hword)]
      exact .native i (Integer64.ofInt?_eq_some_iff.mp hword)
  | none =>
      obtain ⟨refusal, hrefusal⟩ := hnone hword
      rw [valueFor_integer_error hgiven htype hrefusal hnull]
      refine .refused raw type refusal ?_
      intro hfits
      rw [Integer64.ofInt?, if_pos hfits] at hword
      cases hword

theorem keeps_digits (hgiven : Converters.orBuiltIn given = Converters.builtIn)
    (htype : type.isA .integer = true) (z : Int) :
    Keeps z (valueFor given clock type (.string (String.ofList (Text.signedDigits z)))) :=
  keeps_of_readInteger hgiven htype (by simp) (fun _ h => Value.readInteger_digits h)
    fun h => ⟨_, Value.readInteger_digits_beyond h⟩

/-- The token of an integer is kept or refused unless it rounds into the range. -/
theorem keeps_token_iff (hgiven : Converters.orBuiltIn given = Converters.builtIn)
    (htype : type.isA .integer = true) {z : Int} {n : Json.Number}
    (htoken : Json.Document.ofText? (String.ofList (Text.signedDigits z)) = some (.number n)) :
    Keeps z (valueFor given clock type (.number n)) ↔ ¬ RoundsIntoRange z := by
  obtain ⟨hband, hkept⟩ := Value.integerOf?_token (Json.toNumber?_of_ofText? htoken)
  constructor
  · intro h hrounds
    have hread : Value.readInteger (.number n) = .ok (Int64.ofInt (-(1 <<< 63))) := by
      simp only [Value.readInteger, hband hrounds]
    rw [valueFor_integer hgiven htype hread] at h
    cases h with
    | native i h =>
        rw [RoundsIntoRange, ← h] at hrounds
        exact absurd hrounds (by decide)
  · intro hrounds
    refine keeps_of_readInteger hgiven htype (by simp) ?_ ?_
    · intro i hword
      simp only [Value.readInteger, hkept hrounds, hword]
    · intro hword
      exact ⟨.integerOutOfRange n, by simp only [Value.readInteger, hkept hrounds, hword]⟩

end Operator

/-! ### Runs that fail alike -/

/-- Whether a fault is of a scalar that could not be converted. -/
def Fault.isConversion : Fault → Bool
  | .conversion _ _ _ => true
  | _ => false

/-- Two runs with one result, where it does not matter why a conversion failed. -/
inductive Alike {α : Type} : Except Fault α → Except Fault α → Prop
  | same (run : Except Fault α) : Alike run run
  | refused {fault fault' : Fault} (h : fault.isConversion = true)
      (h' : fault'.isConversion = true) : Alike (.error fault) (.error fault')

theorem Alike.eq_or {α : Type} {run run' : Except Fault α} (h : Alike run run') :
    run = run' ∨ ∃ fault fault', fault.isConversion = true ∧ fault'.isConversion = true ∧
      run = .error fault ∧ run' = .error fault' := by
  cases h with
  | same => exact .inl rfl
  | refused h h' => exact .inr ⟨_, _, h, h', rfl, rfl⟩

/-- Two ways to write an integer that both keep it fare alike. -/
theorem Operator.Keeps.alike {z : Int} {run run' : Except Fault (Option Value)} (h : Keeps z run)
    (h' : Keeps z run') : Alike run run' := by
  cases h with
  | native i hi =>
      cases h' with
      | native i' hi' =>
          obtain rfl : i = i' := Int64.toInt_inj.mp (hi.trans hi'.symm)
          exact .same _
      | refused raw type refusal hbeyond =>
          rw [← hi] at hbeyond
          exact absurd ⟨Int64.le_toInt i, Int64.toInt_lt i⟩ hbeyond
  | refused raw type refusal hbeyond =>
      cases h' with
      | native i hi =>
          rw [← hi] at hbeyond
          exact absurd ⟨Int64.le_toInt i, Int64.toInt_lt i⟩ hbeyond
      | refused raw' type' refusal' hbeyond' => exact .refused rfl rfl

end FilterSelect
