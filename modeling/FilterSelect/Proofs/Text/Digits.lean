/-
Runs of digits, written and read.

What is written for a number is a run of digits, with zeros in front up to some width,
and what is read from a run of digits is its value, whatever follows the run.  So a
number that is written and read again is the same number, and a run that is too long for
its reader is the only thing that can come between.

White space around a text is dropped before the text is read.  No digit is white space,
so a text that begins and ends with digits keeps all of its characters.
-/
import FilterSelect.Text.Blank
import FilterSelect.Text.Digits
import Mathlib.Algebra.Group.Nat.Defs
import Mathlib.Data.List.DropRight

namespace FilterSelect

/-- At least one character, and all of them digits. -/
structure IsDigits (s : List Char) : Prop where
  ne_nil : s ≠ []
  all : ∀ c ∈ s, c.isDigit = true

theorem isDigits_digits (n : Nat) : IsDigits (Text.digits n) where
  ne_nil := Nat.toDigits_ne_nil
  all := fun _ hc => Nat.isDigit_of_mem_toDigits (by decide) (by decide) hc

/-- The text of an integer is digits, but for its sign. -/
theorem mem_signedDigits {z : Int} {c : Char} (h : c ∈ Text.signedDigits z) :
    c = '-' ∨ c.isDigit = true := by
  unfold Text.signedDigits at h
  split at h
  · exact (List.mem_cons.mp h).imp id ((isDigits_digits _).all c)
  · exact .inr ((isDigits_digits _).all c h)

theorem isDigits_zero : IsDigits ['0'] where
  ne_nil := List.cons_ne_nil _ _
  all := by simp [Char.isDigit]

theorem isDigit_of_mem_zeros {n : Nat} : ∀ c ∈ List.replicate n '0', c.isDigit = true := by
  intro c hc
  rw [List.eq_of_mem_replicate hc]
  rfl

theorem IsDigits.prepend {s ds : List Char} (h : IsDigits s)
    (hds : ∀ c ∈ ds, c.isDigit = true) : IsDigits (ds ++ s) where
  ne_nil := fun hnil => h.ne_nil (List.append_eq_nil_iff.mp hnil).2
  all := fun c hc => (List.mem_append.mp hc).elim (hds c) (h.all c)

theorem IsDigits.append {s ds : List Char} (h : IsDigits s)
    (hds : ∀ c ∈ ds, c.isDigit = true) : IsDigits (s ++ ds) where
  ne_nil := fun hnil => h.ne_nil (List.append_eq_nil_iff.mp hnil).1
  all := fun c hc => (List.mem_append.mp hc).elim (h.all c) (hds c)

theorem isDigits_padded (width n : Nat) : IsDigits (Text.padded width n) :=
  (isDigits_digits n).prepend isDigit_of_mem_zeros

theorem le_length_padded (width n : Nat) : width ≤ (Text.padded width n).length := by
  unfold Text.padded
  rw [List.length_append, List.length_replicate]
  omega

theorem IsDigits.take {s : List Char} (h : IsDigits s) {n : Nat} (hn : 0 < n) :
    IsDigits (s.take n) where
  ne_nil := by
    rw [Ne, List.take_eq_nil_iff]
    rintro (hzero | hnil)
    · omega
    · exact h.ne_nil hnil
  all := fun c hc => h.all c (List.mem_of_mem_take hc)

theorem IsDigits.drop {s : List Char} (h : IsDigits s) {n : Nat} (hn : n < s.length) :
    IsDigits (s.drop n) where
  ne_nil := by
    rw [Ne, List.drop_eq_nil_iff]
    omega
  all := fun c hc => h.all c (List.mem_of_mem_drop hc)

theorem IsDigits.exists_cons {s : List Char} (h : IsDigits s) :
    ∃ d ds, s = d :: ds ∧ d.isDigit = true := by
  obtain ⟨hne, hall⟩ := h
  cases s with
  | nil => exact absurd rfl hne
  | cons d ds => exact ⟨d, ds, rfl, hall d List.mem_cons_self⟩

namespace Text

/-! ### The value of a run -/

/-- What a number becomes when digits are read on from it. -/
def continued (n : Nat) (ds : List Char) : Nat :=
  ds.foldl (fun n d => 10 * n + digitValue d) n

private theorem continued_eq (n : Nat) (ds : List Char) :
    continued n ds = Nat.ofDigitChars 10 ds n := rfl

@[simp] theorem continued_nil (n : Nat) : continued n [] = n := rfl

theorem continued_zero (ds : List Char) : continued 0 ds = numeral ds := rfl

theorem continued_cons (n : Nat) (d : Char) (ds : List Char) :
    continued n (d :: ds) = continued (10 * n + digitValue d) ds := by
  rw [continued, List.foldl_cons, ← continued]

theorem continued_append (n : Nat) (ds es : List Char) :
    continued n (ds ++ es) = continued (continued n ds) es :=
  List.foldl_append

/-- Every digit that is read on moves a number by one place. -/
theorem pow_mul_le_continued (n : Nat) (ds : List Char) : 10 ^ ds.length * n ≤ continued n ds := by
  have heq : continued n ds = 10 ^ ds.length * n + continued 0 ds :=
    Nat.ofDigitChars_eq_ofDigitChars_zero
  omega

theorem le_continued (n : Nat) (ds : List Char) : n ≤ continued n ds :=
  Nat.le_trans (Nat.le_mul_of_pos_left n (Nat.pow_pos (by decide))) (pow_mul_le_continued n ds)

theorem digitValue_le {c : Char} (h : c.isDigit = true) : digitValue c ≤ 9 := by
  have hle : c.toNat ≤ 57 := (Char.isDigit_iff_toNat.mp h).2
  show c.toNat - 48 ≤ 9
  omega

/-- A number that digits are read on from stays below its successor in the same place. -/
theorem continued_lt {ds : List Char} (h : ∀ c ∈ ds, c.isDigit = true) (n : Nat) :
    continued n ds < 10 ^ ds.length * (n + 1) := by
  induction ds generalizing n with
  | nil => simp
  | cons d ds ih =>
      have hd : digitValue d ≤ 9 := digitValue_le (h d List.mem_cons_self)
      have hds : ∀ c ∈ ds, c.isDigit = true := fun c hc => h c (List.mem_cons_of_mem d hc)
      calc continued n (d :: ds) = continued (10 * n + digitValue d) ds := continued_cons n d ds
        _ < 10 ^ ds.length * (10 * n + digitValue d + 1) := ih hds _
        _ ≤ 10 ^ ds.length * (10 * (n + 1)) := Nat.mul_le_mul_left _ (by omega)
        _ = 10 ^ (d :: ds).length * (n + 1) := by
          rw [List.length_cons, Nat.pow_succ, Nat.mul_assoc]

@[simp] theorem numeral_digits (n : Nat) : numeral (digits n) = n :=
  Nat.ofDigitChars_ten_toDigits

@[simp] theorem numeral_padded (width n : Nat) : numeral (padded width n) = n := by
  have hzeros : continued 0 (List.replicate (width - (digits n).length) '0') = 0 := by
    rw [continued_eq, Nat.ofDigitChars_replicate_zero, Nat.mul_zero]
  rw [padded, ← continued_zero, continued_append, hzeros, continued_zero, numeral_digits]

/-- No zero stands in front of the digits of a number. -/
theorem digits_ne_zero_cons (n : Nat) (d : Char) (ds : List Char) :
    digits n ≠ '0' :: d :: ds := by
  intro h
  have hdigits : ∀ c ∈ d :: ds, c.isDigit = true := fun c hc =>
    (isDigits_digits n).all c (by rw [h]; exact List.mem_cons_of_mem _ hc)
  have hvalue : n = continued 0 (d :: ds) := by
    rw [← numeral_digits n, h, ← continued_zero, continued_cons]
    rfl
  have hlt : n < 10 ^ (d :: ds).length := by
    have hcontinued := continued_lt hdigits 0
    rwa [← hvalue, Nat.zero_add, Nat.mul_one] at hcontinued
  have hlength : (digits n).length ≤ (d :: ds).length :=
    (Nat.length_toDigits_le_iff (by decide) (by simp)).mpr hlt
  rw [h, List.length_cons] at hlength
  omega

/-- A number that has no more digits than the width is written in exactly that width. -/
theorem length_padded {width n : Nat} (hwidth : 0 < width) (h : n < 10 ^ width) :
    (padded width n).length = width := by
  have hlength : (digits n).length ≤ width :=
    (Nat.length_toDigits_le_iff (by decide) hwidth).mpr h
  rw [padded, List.length_append, List.length_replicate]
  omega

/-! ### Taking a run from the front of a text

A run is taken in the width that may be taken at most, or up to where the text goes on with
something else.
-/

/-- The text does not go on with a digit. -/
def EndsDigits (s : List Char) : Prop :=
  ∀ c ∈ s.head?, c.isDigit = false

theorem endsDigits_nil : EndsDigits [] := by simp [EndsDigits]

theorem endsDigits_cons {c : Char} (h : c.isDigit = false) (s : List Char) :
    EndsDigits (c :: s) := by simpa [EndsDigits] using h

/-- A run as long as may be taken is taken, whatever follows. -/
theorem takeDigits_eq {ds : List Char} (h : ∀ c ∈ ds, c.isDigit = true) (rest : List Char) :
    takeDigits ds.length (ds ++ rest) = (ds, rest) := by
  induction ds with
  | nil => rw [List.length_nil, takeDigits, List.nil_append]
  | cons d ds ih =>
      have hd : d.isDigit = true := h d List.mem_cons_self
      rw [List.length_cons, List.cons_append, takeDigits, if_pos hd,
        ih fun c hc => h c (List.mem_cons_of_mem d hc)]

theorem takeAllDigits_eq {ds rest : List Char} (h : ∀ c ∈ ds, c.isDigit = true)
    (hrest : EndsDigits rest) : takeAllDigits (ds ++ rest) = (ds, rest) := by
  rw [takeAllDigits, List.takeWhile_append_of_pos h, List.dropWhile_append_of_pos h]
  cases rest with
  | nil => simp
  | cons c rest =>
      have hc : c.isDigit = false := hrest c rfl
      simp [hc]

theorem splitSign_of_isDigit {d : Char} (h : d.isDigit = true) (ds : List Char) :
    splitSign (d :: ds) = (false, d :: ds) := by
  unfold splitSign
  split
  · rename_i heq
    cases heq
    exact absurd h (by decide)
  · rename_i heq
    cases heq
    exact absurd h (by decide)
  · rfl

/-! ### White space -/

theorem isBlank_of_isDigit {c : Char} (h : c.isDigit = true) : isBlank c = false := by
  obtain ⟨hlow, hhigh⟩ := Char.isDigit_iff_toNat.mp h
  have hlow' : 48 ≤ c.toNat := hlow
  have hhigh' : c.toNat ≤ 57 := hhigh
  simp only [isBlank, Bool.or_eq_false_iff, Bool.and_eq_false_iff, decide_eq_false_iff_not,
    beq_eq_false_iff_ne]
  omega

/-- The text has a first and a last character, and neither is white space. -/
structure IsTight (s : List Char) : Prop where
  head : ∃ c ∈ s.head?, isBlank c = false
  last : ∃ c ∈ s.getLast?, isBlank c = false

/-- Between two tight texts there may be anything. -/
theorem IsTight.enclose {s e : List Char} (hs : IsTight s) (he : IsTight e) (middle : List Char) :
    IsTight (s ++ middle ++ e) where
  head := by
    obtain ⟨c, hc, hblank⟩ := hs.head
    rw [List.append_assoc, List.head?_append]
    exact ⟨c, by simp [Option.mem_def.mp hc], hblank⟩
  last := by
    obtain ⟨c, hc, hblank⟩ := he.last
    rw [List.getLast?_append]
    exact ⟨c, by simp [Option.mem_def.mp hc], hblank⟩

theorem isTight_singleton {c : Char} (h : isBlank c = false) : IsTight [c] :=
  ⟨⟨c, rfl, h⟩, ⟨c, rfl, h⟩⟩

theorem IsTight.ne_nil {s : List Char} (h : IsTight s) : s ≠ [] := by
  rintro rfl
  obtain ⟨c, hc, -⟩ := h.head
  cases hc

theorem isTight_of_isDigits {s : List Char} (h : IsDigits s) : IsTight s where
  head := ⟨s.head h.ne_nil, List.head?_eq_some_head h.ne_nil,
    isBlank_of_isDigit (h.all _ (List.head_mem h.ne_nil))⟩
  last := ⟨s.getLast h.ne_nil, List.getLast?_eq_some_getLast h.ne_nil,
    isBlank_of_isDigit (h.all _ (List.getLast_mem h.ne_nil))⟩

/-- All of the characters are white space. -/
def IsBlankRun (s : List Char) : Prop :=
  ∀ c ∈ s, isBlank c = true

private theorem trimLeft_append {space s : List Char} (hspace : IsBlankRun space) :
    trimLeft (space ++ s) = trimLeft s :=
  List.dropWhile_append_of_pos hspace

/-- A tight text keeps its front, whatever follows. -/
theorem trimLeft_of_isTight {s : List Char} (h : IsTight s) (rest : List Char) :
    trimLeft (s ++ rest) = s ++ rest := by
  obtain ⟨c, hc, hblank⟩ := h.head
  obtain ⟨cs, rfl⟩ := List.head?_eq_some_iff.mp hc
  exact trimLeft_cons_of_not_blank hblank (cs ++ rest)

private theorem IsTight.reverse {s : List Char} (h : IsTight s) : IsTight s.reverse where
  head := by simpa using h.last
  last := by simpa using h.head

theorem trim_eq {before s after : List Char} (hbefore : IsBlankRun before)
    (hafter : IsBlankRun after) (h : IsTight s) : trim (before ++ s ++ after) = s := by
  have hreverse : IsBlankRun after.reverse := fun c hc => hafter c (List.mem_reverse.mp hc)
  have hback : trimLeft s.reverse = s.reverse := by
    simpa using trimLeft_of_isTight h.reverse []
  rw [trim, List.append_assoc, trimLeft_append hbefore, trimLeft_of_isTight h, trimRight,
    List.reverse_append, trimLeft_append hreverse, hback, List.reverse_reverse]

theorem trim_trim (s : List Char) : trim (trim s) = trim s := by
  have hfront : trimLeft (trim s) = trim s := by
    have hprefix : trim s <+: trimLeft s := List.rdropWhile_prefix isBlank (trimLeft s)
    cases htrim : trim s with
    | nil => rfl
    | cons c cs =>
        rw [htrim] at hprefix
        obtain ⟨rest, hrest⟩ := hprefix
        have hblank := List.head?_dropWhile_not isBlank s
        rw [← trimLeft, ← hrest] at hblank
        exact trimLeft_cons_of_not_blank (by simpa using hblank) cs
  have hback : trimRight (trim s) = trim s := List.rdropWhile_idempotent isBlank (trimLeft s)
  rw [trim, hfront, hback]

end Text

end FilterSelect
