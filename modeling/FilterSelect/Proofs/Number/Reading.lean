/-
Integers and decimals that are written are read back.

Both readers go through the digits of a text one by one and carry the number read so far.
As that number only grows, a number that fits at the end has fitted all the way, so the
tests that a reader makes on the way never stop it: `readDigits` has one lemma for each
reader, by induction on the digits, and the rest is about signs and the point.
-/
import FilterSelect.Number.Decimal.Reader
import FilterSelect.Number.Integer64
import FilterSelect.Proofs.Text.Digits

namespace FilterSelect

open Text (continued IsTight)

/-! ### Integers

A sign is split off first, and the digits behind it are read up to the limit of that sign.
-/

namespace Integer64

theorem readDigits_eq {limit : Nat} (beyond : Fault) {ds : List Char}
    (hdigits : ∀ c ∈ ds, c.isDigit = true) {n : Nat} (hlimit : continued n ds ≤ limit) :
    readDigits limit beyond n ds = .ok (continued n ds) := by
  induction ds generalizing n with
  | nil => rfl
  | cons d ds ih =>
      have hd : d.isDigit = true := hdigits d List.mem_cons_self
      have hds : ∀ c ∈ ds, c.isDigit = true := fun c hc => hdigits c (List.mem_cons_of_mem d hc)
      rw [Text.continued_cons] at hlimit ⊢
      have hnext : 10 * n + Text.digitValue d ≤ limit :=
        Nat.le_trans (Text.le_continued _ ds) hlimit
      rw [readDigits, if_pos hd]
      simp only [if_pos hnext, ih hds hlimit]

/-- Digits that lead past the limit are refused at the first one that does. -/
theorem readDigits_beyond {limit : Nat} (beyond : Fault) {ds : List Char}
    (hdigits : ∀ c ∈ ds, c.isDigit = true) {n : Nat} (hn : n ≤ limit)
    (hlimit : limit < continued n ds) : readDigits limit beyond n ds = .error beyond := by
  induction ds generalizing n with
  | nil => exact absurd hlimit (Nat.not_lt.mpr hn)
  | cons d ds ih =>
      have hd : d.isDigit = true := hdigits d List.mem_cons_self
      have hds : ∀ c ∈ ds, c.isDigit = true := fun c hc => hdigits c (List.mem_cons_of_mem d hc)
      rw [Text.continued_cons] at hlimit
      rw [readDigits, if_pos hd]
      dsimp only
      split
      · rename_i hnext
        exact ih hds hnext hlimit
      · rfl

theorem readMagnitude_digits {limit n : Nat} (beyond : Fault) (h : n ≤ limit) :
    readMagnitude limit beyond (Text.digits n) = .ok n := by
  have hvalue : continued 0 (Text.digits n) = n := Text.numeral_digits n
  have hdigits := isDigits_digits n
  rw [readMagnitude, if_neg hdigits.ne_nil,
    readDigits_eq beyond hdigits.all (by rw [hvalue]; exact h), hvalue]

theorem readMagnitude_beyond {limit n : Nat} (beyond : Fault) (h : limit < n) :
    readMagnitude limit beyond (Text.digits n) = .error beyond := by
  have hvalue : continued 0 (Text.digits n) = n := Text.numeral_digits n
  have hdigits := isDigits_digits n
  rw [readMagnitude, if_neg hdigits.ne_nil,
    readDigits_beyond beyond hdigits.all (Nat.zero_le limit) (by rw [hvalue]; exact h)]

theorem read_digits {s : List Char} (h : IsDigits s) :
    read s = (readMagnitude ((1 <<< 63) - 1) .tooLarge s).map fun n => Int64.ofInt n := by
  obtain ⟨d, ds, rfl, hd⟩ := h.exists_cons
  unfold read
  split
  · rename_i heq
    cases heq
  · rename_i heq
    cases heq
    exact absurd hd (by decide)
  · rename_i heq
    cases heq
    exact absurd hd (by decide)
  · rfl

/-- The digits of an integer that has a word are read as that word. -/
theorem read_signedDigits {z : Int} {i : Int64} (h : ofInt? z = some i) :
    read (Text.signedDigits z) = .ok i := by
  obtain rfl := ofInt?_eq_some_iff.mp h
  have hlow := Int64.le_toInt i
  have hhigh := Int64.toInt_lt i
  unfold Text.signedDigits
  split
  · rename_i hnegative
    rw [read, readMagnitude_digits _ (by omega)]
    have hvalue : -(i.toInt.natAbs : Int) = i.toInt := by omega
    show Except.ok (Int64.ofInt (-(i.toInt.natAbs : Int))) = _
    rw [hvalue, Int64.ofInt_toInt]
  · rename_i hnegative
    rw [read_digits (isDigits_digits _), readMagnitude_digits _ (by omega)]
    have hvalue : (i.toInt.natAbs : Int) = i.toInt := by omega
    show Except.ok (Int64.ofInt (i.toInt.natAbs : Int)) = _
    rw [hvalue, Int64.ofInt_toInt]

/-- The digits of an integer without a word are refused for their number. -/
theorem read_signedDigits_beyond {z : Int} (h : ofInt? z = none) :
    read (Text.signedDigits z) = .error (if z < 0 then .tooSmall else .tooLarge) := by
  have hbeyond : ¬ (-(1 <<< 63) ≤ z ∧ z < 1 <<< 63) := by
    intro hfits
    rw [ofInt?, if_pos hfits] at h
    cases h
  unfold Text.signedDigits
  split
  · rw [read, readMagnitude_beyond _ (by omega)]
    rfl
  · rw [read_digits (isDigits_digits _), readMagnitude_beyond _ (by omega)]
    rfl

/-- An integer is read back from its text. -/
theorem read_text (i : Int64) : read (text i) = .ok i :=
  read_signedDigits (ofInt?_eq_some_iff.mpr rfl)

theorem text_injective {i j : Int64} (h : text i = text j) : i = j := by
  have hread := read_text i
  rw [h, read_text j] at hread
  exact (Except.ok.inj hread).symm

theorem isTight_signedDigits (z : Int) : IsTight (Text.signedDigits z) := by
  have hdigits := Text.isTight_of_isDigits (isDigits_digits z.natAbs)
  unfold Text.signedDigits
  split
  · exact (Text.isTight_singleton (by decide)).enclose hdigits []
  · exact hdigits

theorem isTight_text (i : Int64) : IsTight (text i) :=
  isTight_signedDigits i.toInt

end Integer64

/-! ### Decimals -/

namespace Decimal

/-- What has been read once the digits `ds` are passed too. -/
def Progress.after (p : Progress) (ds : List Char) : Progress where
  coefficient := continued p.coefficient ds
  scale := if p.inFraction then p.scale + ds.length else p.scale
  inFraction := p.inFraction
  started := p.started || !ds.isEmpty

@[simp] theorem Progress.after_nil (p : Progress) : p.after [] = p := by
  cases p
  simp [Progress.after]

theorem Progress.after_cons (p : Progress) (d : Char) (ds : List Char) :
    p.after (d :: ds) = (p.after [d]).after ds := by
  cases hfraction : p.inFraction <;>
    simp [Progress.after, hfraction, Text.continued_cons, Nat.add_assoc, Nat.add_comm 1]

/-- There is room for the digits `ds`; the scale counts digits of the fraction only. -/
structure Progress.HasRoom (p : Progress) (ds : List Char) : Prop where
  coefficient_lt : continued p.coefficient ds < 1 <<< 96
  scale_le : p.inFraction = true → p.scale + ds.length ≤ maxScale
  scale_eq : p.inFraction = false → p.scale = 0

private theorem Progress.HasRoom.cons {p : Progress} {d : Char} {ds : List Char}
    (h : p.HasRoom (d :: ds)) : p.HasRoom [d] ∧ (p.after [d]).HasRoom ds := by
  obtain ⟨hlt, hscale, hwhole⟩ := h
  rw [Text.continued_cons] at hlt
  refine ⟨⟨Nat.lt_of_le_of_lt (Text.le_continued _ ds) hlt, ?_, hwhole⟩, ⟨hlt, ?_, ?_⟩⟩
  · intro hfraction
    have hle := hscale hfraction
    rw [List.length_cons] at hle
    rw [List.length_singleton]
    omega
  · intro hfraction
    have hfraction' : p.inFraction = true := hfraction
    have hle := hscale hfraction'
    have hafter : (p.after [d]).scale = p.scale + 1 := by simp [Progress.after, hfraction']
    rw [List.length_cons] at hle
    omega
  · intro hfraction
    have hfraction' : p.inFraction = false := hfraction
    simp [Progress.after, hfraction', hwhole hfraction']

theorem readDigits_cons {p : Progress} {d : Char} (hd : d.isDigit = true) (h : p.HasRoom [d])
    (rest : List Char) : readDigits p (d :: rest) = readDigits (p.after [d]) rest := by
  have hnext : 10 * p.coefficient + Text.digitValue d < 1 <<< 96 := h.coefficient_lt
  have hfull : (p.inFraction && p.scale == maxScale) = false := by
    cases hfraction : p.inFraction with
    | false => rfl
    | true =>
        have hle := h.scale_le hfraction
        rw [List.length_singleton] at hle
        rw [Bool.true_and, beq_eq_false_iff_ne]
        omega
  rw [readDigits, if_pos hd]
  simp only [hfull, Bool.false_eq_true, if_false, if_pos hnext]
  cases hfraction : p.inFraction with
  | false => simp [Progress.after, hfraction, h.scale_eq hfraction, Text.continued_cons]
  | true => simp [Progress.after, hfraction, Text.continued_cons]

/-- Digits with room for all of them are taken one by one. -/
theorem readDigits_append {p : Progress} {ds : List Char}
    (hdigits : ∀ c ∈ ds, c.isDigit = true) (h : p.HasRoom ds) (rest : List Char) :
    readDigits p (ds ++ rest) = readDigits (p.after ds) rest := by
  induction ds generalizing p with
  | nil => rw [List.nil_append, p.after_nil]
  | cons d ds ih =>
      have hd : d.isDigit = true := hdigits d List.mem_cons_self
      have hds : ∀ c ∈ ds, c.isDigit = true := fun c hc => hdigits c (List.mem_cons_of_mem d hc)
      rw [List.cons_append, readDigits_cons hd h.cons.1, ih hds h.cons.2, ← p.after_cons]

/-! #### The text of a decimal -/

/-- The text of a decimal without its sign. -/
def unsignedText (d : Decimal) : List Char :=
  let ds := Text.padded (d.scale + 1) d.coefficient
  ds.take (ds.length - d.scale) ++
    (if d.scale = 0 then [] else '.' :: ds.drop (ds.length - d.scale))

theorem text_eq (d : Decimal) :
    d.text = (if d.negative then ['-'] else []) ++ d.unsignedText := by
  rw [text, unsignedText, List.append_assoc]

/-- The digits before the point, of which there is always one, and the digits after it. -/
theorem exists_unsignedText (d : Decimal) : ∃ whole fraction,
    IsDigits whole ∧ (∀ c ∈ fraction, c.isDigit = true) ∧ fraction.length = d.scale ∧
      continued (continued 0 whole) fraction = d.coefficient ∧
        d.unsignedText = whole ++ (if d.scale = 0 then [] else '.' :: fraction) := by
  have hdigits := isDigits_padded (d.scale + 1) d.coefficient
  have hlength := le_length_padded (d.scale + 1) d.coefficient
  refine ⟨_, _, hdigits.take (by omega), fun c hc => hdigits.all c (List.mem_of_mem_drop hc), ?_,
    ?_, rfl⟩
  · rw [List.length_drop]
    omega
  · rw [← Text.continued_append, List.take_append_drop, Text.continued_zero, Text.numeral_padded]

/-- The digits of a decimal give its coefficient and its scale. -/
theorem readDigits_unsignedText (d : Decimal) :
    readDigits ⟨0, 0, false, false⟩ d.unsignedText = .ok (d.coefficient, d.scale) := by
  obtain ⟨whole, fraction, hwhole, hfraction, hlength, hvalue, htext⟩ := d.exists_unsignedText
  have hlt := d.coefficient_lt
  rw [← hvalue] at hlt
  have hroom : Progress.HasRoom ⟨0, 0, false, false⟩ whole :=
    ⟨Nat.lt_of_le_of_lt (Text.le_continued _ fraction) hlt, nofun, fun _ => rfl⟩
  have hafter : Progress.after ⟨0, 0, false, false⟩ whole =
      ⟨continued 0 whole, 0, false, true⟩ := by
    obtain ⟨c, cs, rfl, -⟩ := hwhole.exists_cons
    rfl
  rw [htext, readDigits_append hwhole.all hroom, hafter]
  split
  · rename_i hscale
    rw [hscale, List.length_eq_zero_iff] at hlength
    subst hlength
    rw [readDigits, if_pos rfl, hscale, ← hvalue, Text.continued_nil]
  · rename_i hscale
    have hroom' : Progress.HasRoom ⟨continued 0 whole, 0, true, true⟩ fraction := by
      refine ⟨hlt, fun _ => ?_, nofun⟩
      rw [Nat.zero_add, hlength]
      exact d.scale_le
    have hfinal := readDigits_append hfraction hroom' []
    rw [List.append_nil] at hfinal
    rw [readDigits, if_neg (by decide), if_neg (by simp), if_pos (by simp)]
    rw [hfinal, readDigits]
    simp [Progress.after, hvalue, hlength]

theorem splitSign_text (d : Decimal) : Text.splitSign d.text = (d.negative, d.unsignedText) := by
  obtain ⟨whole, fraction, hwhole, -, -, -, htext⟩ := d.exists_unsignedText
  rw [d.text_eq]
  cases d.negative with
  | true => rfl
  | false =>
      obtain ⟨c, cs, rfl, hc⟩ := hwhole.exists_cons
      rw [htext]
      exact Text.splitSign_of_isDigit hc _

theorem isTight_text (d : Decimal) : IsTight d.text := by
  obtain ⟨whole, fraction, hwhole, hfraction, hlength, -, htext⟩ := d.exists_unsignedText
  have hunsigned : IsTight d.unsignedText := by
    rw [htext]
    split
    · rw [List.append_nil]
      exact Text.isTight_of_isDigits hwhole
    · rename_i hscale
      have hdigits : IsDigits fraction := by
        refine ⟨?_, hfraction⟩
        rintro rfl
        exact hscale hlength.symm
      simpa using (Text.isTight_of_isDigits hwhole).enclose (Text.isTight_of_isDigits hdigits) ['.']
  rw [d.text_eq]
  split
  · exact (Text.isTight_singleton (by decide)).enclose hunsigned []
  · exact hunsigned

/-- A decimal is determined by its text. -/
theorem text_injective {d e : Decimal} (h : d.text = e.text) : d = e := by
  have hsplit := d.splitSign_text
  have hread := d.readDigits_unsignedText
  rw [h, e.splitSign_text, Prod.mk.injEq] at hsplit
  obtain ⟨hnegative, hunsigned⟩ := hsplit
  rw [← hunsigned, e.readDigits_unsignedText, Except.ok.injEq, Prod.mk.injEq] at hread
  obtain ⟨hcoefficient, hscale⟩ := hread
  cases d
  cases e
  rw [mk.injEq]
  exact ⟨hnegative.symm, hcoefficient.symm, hscale.symm⟩

/-- A decimal that is not a negative zero is read back from its text, with its scale. -/
theorem read_text {d : Decimal} (h : d.coefficient = 0 → d.negative = false) :
    read d.text = .ok d := by
  have hsign : (d.negative && d.coefficient != 0) = d.negative := by
    by_cases hzero : d.coefficient = 0
    · rw [h hzero, Bool.false_and]
    · simp [hzero]
  have hparts : ofParts? d.negative d.coefficient d.scale = some d :=
    dif_pos ⟨d.coefficient_lt, d.scale_le⟩
  have hplain : readPlain d.text = .ok d := by
    obtain ⟨c, cs, hcons⟩ := List.exists_cons_of_ne_nil d.isTight_text.ne_nil
    rw [hcons, readPlain, ← hcons]
    simp only [d.splitSign_text, d.readDigits_unsignedText, hsign, hparts]
  rw [read, hplain]

end Decimal

end FilterSelect
