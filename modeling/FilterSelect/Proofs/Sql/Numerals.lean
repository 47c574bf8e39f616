/-
Numbers are written as numerals.

A number is the only token whose text is not quoted, so it has to be shown that what
is written for one are digits, with an optional sign and an optional fraction.  That
is so for integers, for decimals and for doubles, which are written without exponent.
-/
import FilterSelect.Proofs.Sql.Tokens
import FilterSelect.Proofs.Text.Digits
import FilterSelect.Value.Basic

namespace FilterSelect

open Sql (Fraction Numeral)

/-- Digits after an optional sign and before an optional fraction are a numeral. -/
theorem IsDigits.numeral {whole fraction : List Char} (h : IsDigits whole)
    (hfraction : Fraction fraction) (negative : Bool) :
    Numeral ((if negative then ['-'] else []) ++ whole ++ fraction) := by
  obtain ⟨hne, hall⟩ := h
  cases whole with
  | nil => exact absurd rfl hne
  | cons d ds =>
      have hd := hall d List.mem_cons_self
      have hds : ∀ c ∈ ds, c.isDigit = true := fun c hc => hall c (List.mem_cons_of_mem d hc)
      cases negative with
      | false => exact .unsigned hd hds hfraction
      | true => exact .negative hd hds hfraction

theorem IsDigits.fraction {s : List Char} (h : IsDigits s) : Fraction ('.' :: s) := by
  obtain ⟨hne, hall⟩ := h
  cases s with
  | nil => exact absurd rfl hne
  | cons f fs =>
      exact .digits (hall f List.mem_cons_self) fun c hc => hall c (List.mem_cons_of_mem f hc)

/-! ### Integers and decimals -/

theorem numeral_integer (i : Int64) : Numeral (Integer64.text i) := by
  unfold Integer64.text Text.signedDigits
  have hdigits := isDigits_digits i.toInt.natAbs
  split
  · simpa using hdigits.numeral .none true
  · simpa using hdigits.numeral .none false

theorem numeral_decimal (d : Decimal) : Numeral d.text := by
  have hdigits := isDigits_padded (d.scale + 1) d.coefficient
  have hlength := le_length_padded (d.scale + 1) d.coefficient
  unfold Decimal.text
  refine (hdigits.take ?_).numeral ?_ d.negative
  · omega
  · split
    · exact .none
    · refine (hdigits.drop ?_).fraction
      omega

/-! ### Doubles

A double is written in positional notation, whose digits are those of the shortest decimal with
zeros where that is called for.
-/

/-- Positional notation is digits with an optional fraction. -/
theorem positional_eq {ds : List Char} (h : IsDigits ds) (point : Int) :
    ∃ whole fraction, IsDigits whole ∧ Fraction fraction ∧
      Binary64.positional ds point false = whole ++ fraction := by
  unfold Binary64.positional
  split
  · have hfraction : IsDigits (List.replicate (-point).toNat '0' ++ ds) :=
      h.prepend isDigit_of_mem_zeros
    exact ⟨['0'], _, isDigits_zero, hfraction.fraction, rfl⟩
  · rename_i hpoint
    dsimp only
    split
    · exact ⟨_, [], h.append isDigit_of_mem_zeros, .none, rfl⟩
    · exact ⟨_, _, h.take (by omega), (h.drop (by omega)).fraction, rfl⟩

/-- A double is written without an exponent, whatever its magnitude. -/
theorem numeral_double (x : Binary64) : Numeral x.plainText := by
  unfold Binary64.plainText Binary64.render
  dsimp only [Binary64.plain]
  by_cases hzero : x.isZero = true
  · rw [if_pos hzero]
    simpa using isDigits_zero.numeral .none x.negative
  · obtain ⟨whole, fraction, hwhole, hfraction, heq⟩ := positional_eq
      (isDigits_digits (x.shortest true).digits)
      ((x.shortest true).exponent + (Text.digits (x.shortest true).digits).length - 1 + 1)
    rw [if_neg hzero]
    simp only [Option.map_none, Option.getD_none, Bool.or_self, Bool.false_eq_true, if_false]
    rw [heq, ← List.append_assoc]
    exact hwhole.numeral hfraction x.negative

end FilterSelect
