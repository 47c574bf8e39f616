/-
Patterns that no text fits both of.

Patterns are lenient: white space may stand before a number or be missing where a pattern
has a blank, numbers may be short, years may have a sign, names may be cut.  So it is not
plain that two patterns have no text in common.  `apart` is a test for it that can be
computed, and `apart_sound` says that it can be trusted.

The test goes along both patterns as long as they have the same items, since the same item
leaves the same rest of a text.  Where they part, it compares what a text can begin with
there.  One case is not settled by that.  A year and a day both begin with a digit, but the
year takes more of them.  If neither is followed by a digit, though, both have taken the
whole run, and the test can go on behind it.
-/
import FilterSelect.Calendar.Pattern
import FilterSelect.Proofs.Text.Digits

namespace FilterSelect

open Text (EndsDigits)

namespace Calendar

/-! ### What is left of a text

Whether a text fits a pattern is a matter of what each item leaves of it.  The parts that are
read on the way are of no concern here, and they are left out.
-/

/-- The text behind an item. -/
def Item.rest? (item : Item) (s : List Char) : Option (List Char) :=
  (item.read {} s).map Prod.snd

/-- The text behind all items of a pattern. -/
def Pattern.rest? : Pattern → List Char → Option (List Char)
  | [], s => some s
  | item :: p, s => (item.rest? s).bind (Pattern.rest? p)

/-- The items of a pattern describe the whole text, though they may name no day and no time. -/
def Pattern.Fits (p : Pattern) (s : List Char) : Prop :=
  p.rest? s = some []

theorem Item.rest?_eq (item : Item) (parts : Parts) (s : List Char) :
    item.rest? s = (item.read parts s).map Prod.snd := by
  cases item with
  | fraction =>
      simp only [rest?, read]
      split
      · simp [Function.comp_def]
      · rfl
  | meridiem =>
      simp only [rest?, read]
      cases dropWord ['a', 'm'] s with
      | some rest => rfl
      | none => simp [Function.comp_def]
  | char c =>
      simp only [rest?, read]
      cases s with
      | nil => rfl
      | cons d rest =>
          dsimp only
          split <;> rfl
  | blank => rfl
  | _ => simp [rest?, read, Function.comp_def]

private theorem Pattern.rest?_of_readItems {p : Pattern} {parts parts' : Parts} {s rest : List Char}
    (h : readItems p parts s = some (parts', rest)) : p.rest? s = some rest := by
  induction p generalizing parts s with
  | nil =>
      cases h
      rfl
  | cons item p ih =>
      rw [readItems] at h
      rw [Pattern.rest?, item.rest?_eq parts]
      cases hread : item.read parts s with
      | none => simp [hread] at h
      | some read =>
          rw [hread] at h
          exact ih h

theorem Pattern.fits_of_parts? {p : Pattern} {s : List Char} {parts : Parts}
    (h : p.parts? s = some parts) : p.Fits s := by
  unfold Pattern.parts? at h
  split at h
  · rename_i hread
    exact rest?_of_readItems hread
  · cases h

theorem Pattern.fits_of_date? {p : Pattern} {s : List Char} {d : Date} (h : p.date? s = some d) :
    p.Fits s := by
  obtain ⟨parts, hparts, -⟩ := Option.bind_eq_some_iff.mp h
  exact fits_of_parts? hparts

theorem Pattern.fits_of_dateTime? {p : Pattern} {s : List Char} {t : DateTime}
    (h : p.dateTime? s = some t) : p.Fits s := by
  obtain ⟨parts, hparts, -⟩ := Option.bind_eq_some_iff.mp h
  exact fits_of_parts? hparts

/-! ### What a text can begin with

A few kinds of characters are enough to say what a text can begin with.  Kinds that exclude
each other have no character in common, and that is all that the test asks of them.
-/

/-- A kind of character. -/
inductive Mark where
  | space
  | digit
  | sign
  | letter
  /-- This character. -/
  | char (c : Char)
deriving DecidableEq, Repr

namespace Mark

/-- Whether a character is of a kind. -/
def holds : Mark → Char → Bool
  | .space, c => Text.isBlank c
  | .digit, c => c.isDigit
  | .sign, c => c = '-' || c = '+'
  | .letter, c => c.isAlpha
  | .char d, c => c = d

/-- Whether two kinds have no character in common. -/
def excludes : Mark → Mark → Bool
  | .char c, m => !m.holds c
  | m, .char c => !m.holds c
  | m, n => m ≠ n

private theorem isAlpha_iff_toNat {c : Char} :
    c.isAlpha = true ↔ 65 ≤ c.toNat ∧ c.toNat ≤ 90 ∨ 97 ≤ c.toNat ∧ c.toNat ≤ 122 := by
  have hupper : c.isUpper = true ↔ 65 ≤ c.toNat ∧ c.toNat ≤ 90 := decide_eq_true_iff
  have hlower : c.isLower = true ↔ 97 ≤ c.toNat ∧ c.toNat ≤ 122 :=
    Bool.and_eq_true_iff.trans (and_congr decide_eq_true_iff decide_eq_true_iff)
  rw [← hupper, ← hlower]
  exact Bool.or_eq_true_iff

private theorem isAlpha_of_isBlank {c : Char} (h : Text.isBlank c = true) : c.isAlpha = false := by
  rw [Bool.eq_false_iff]
  intro halpha
  have hrange := isAlpha_iff_toNat.mp halpha
  simp only [Text.isBlank, Bool.or_eq_true, Bool.and_eq_true, decide_eq_true_eq, beq_iff_eq] at h
  omega

private theorem isAlpha_of_isDigit {c : Char} (h : c.isDigit = true) : c.isAlpha = false := by
  rw [Bool.eq_false_iff]
  intro halpha
  have hrange := isAlpha_iff_toNat.mp halpha
  have hdigit : 48 ≤ c.toNat ∧ c.toNat ≤ 57 := Char.isDigit_iff_toNat.mp h
  omega

/-- The four general kinds have no character in common. -/
theorem eq_of_holds {m n : Mark} {c : Char} (hm : m.holds c = true) (hn : n.holds c = true)
    (hmchar : ∀ d, m ≠ .char d) (hnchar : ∀ d, n ≠ .char d) : m = n := by
  have hsign : ∀ d : Char, (d = '-' || d = '+') = true →
      Text.isBlank d = false ∧ d.isDigit = false ∧ d.isAlpha = false := by
    intro d hd
    rw [Bool.or_eq_true, decide_eq_true_eq, decide_eq_true_eq] at hd
    rcases hd with rfl | rfl <;> decide
  have hblank := @Text.isBlank_of_isDigit c
  have hspace := @isAlpha_of_isBlank c
  have hdigit := @isAlpha_of_isDigit c
  have hsign := hsign c
  cases m <;> cases n <;> simp_all [holds]

theorem excludes_sound {m n : Mark} {c : Char} (h : m.excludes n = true)
    (hm : m.holds c = true) : n.holds c = false := by
  rw [Bool.eq_false_iff]
  intro hn
  unfold excludes at h
  split at h
  · have hc : c = _ := of_decide_eq_true hm
    rw [hc] at hn
    rw [hn] at h
    cases h
  · have hc : c = _ := of_decide_eq_true hn
    rw [hc] at hm
    rw [hm] at h
    cases h
  · rename_i hmchar hnchar
    exact of_decide_eq_true h (eq_of_holds hm hn hmchar hnchar)

end Mark

/-! ### The front of a text that has been read

An item that takes something takes it from the front, so the text begins with one of the item's
marks.  An item that may be missing leaves the text as it was instead.
-/

/-- What a text can begin with that an item takes a part of. -/
def Item.marks : Item → List Mark
  | .year => [.space, .digit, .sign]
  | .month | .day | .hour | .halfDayHour | .minute | .second => [.space, .digit]
  | .fraction => [.char '.']
  | .monthName | .meridiem => [.letter]
  | .blank => [.space]
  | .char c => [.char c]

/-- Whether an item may take nothing. -/
def Item.isOptional : Item → Bool
  | .fraction | .blank => true
  | _ => false

/-- Whether an item is a number of at most two digits without a sign. -/
def Item.isShortNumber : Item → Bool
  | .month | .day | .hour | .halfDayHour | .minute | .second => true
  | _ => false

/-- Whether two items read numbers, and no text that both read has a sign. -/
def Item.sharesDigits (item other : Item) : Bool :=
  item.isShortNumber && (other.isShortNumber || other = .year) ||
    item = .year && other.isShortNumber

theorem Item.rest?_shortNumber {item : Item} (h : item.isShortNumber = true) (s : List Char) :
    item.rest? s = (readNumber 2 s).map Prod.snd := by
  cases item with
  | year | fraction | monthName | meridiem | blank | char => cases h
  | _ => simp [rest?, read, Function.comp_def]

theorem Item.rest?_year (s : List Char) : Item.year.rest? s = (readYear s).map Prod.snd := by
  simp [rest?, read, Function.comp_def]

theorem exists_of_readNumber {most n : Nat} {s rest : List Char}
    (h : readNumber most s = some (n, rest)) :
    ∃ ds, IsDigits ds ∧ Text.trimLeft s = ds ++ rest := by
  unfold readNumber at h
  have happend := Text.takeDigits_append most (Text.trimLeft s)
  have hdigits : ∀ c ∈ (Text.takeDigits most (Text.trimLeft s)).1, c.isDigit = true :=
    fun c hc => Text.isDigit_of_mem_takeDigits hc
  cases htake : Text.takeDigits most (Text.trimLeft s) with
  | mk ds after =>
      rw [htake] at h happend hdigits
      cases ds with
      | nil => cases h
      | cons d ds =>
          cases h
          exact ⟨d :: ds, ⟨List.cons_ne_nil d ds, hdigits⟩, happend.symm⟩

/-- A year is a number, or begins with a sign. -/
theorem readYear_cases {s rest : List Char} {year : Int} (h : readYear s = some (year, rest)) :
    (∃ c cs, Text.trimLeft s = c :: cs ∧ Mark.sign.holds c = true) ∨
      ∃ n, readNumber 4 (Text.trimLeft s) = some (n, rest) := by
  unfold readYear at h
  split at h
  · rename_i rest' htrim
    exact .inl ⟨'-', rest', htrim, rfl⟩
  · rename_i rest' htrim
    exact .inl ⟨'+', rest', htrim, rfl⟩
  · obtain ⟨⟨n, after⟩, hnumber, heq⟩ := Option.map_eq_some_iff.mp h
    cases heq
    exact .inr ⟨n, hnumber⟩

/-- White space, or what stands behind it, is at the front of a text. -/
theorem front_of_trimLeft {s rest : List Char} {c : Char} (h : Text.trimLeft s = c :: rest) :
    ∃ d ds, s = d :: ds ∧ (Text.isBlank d = true ∨ d = c) := by
  cases s with
  | nil => cases h
  | cons d ds =>
      refine ⟨d, ds, rfl, ?_⟩
      cases hblank : Text.isBlank d with
      | true => exact .inl rfl
      | false =>
          rw [Text.trimLeft_cons_of_not_blank hblank] at h
          exact .inr (List.cons.inj h).1

private theorem trimLeft_trimLeft (s : List Char) :
    Text.trimLeft (Text.trimLeft s) = Text.trimLeft s :=
  List.dropWhile_idempotent _ _

private theorem front_of_readNumber {most n : Nat} {s rest : List Char}
    (h : readNumber most s = some (n, rest)) :
    ∃ c cs, s = c :: cs ∧ (Mark.space.holds c = true ∨ Mark.digit.holds c = true) := by
  obtain ⟨ds, hdigits, htrim⟩ := exists_of_readNumber h
  obtain ⟨d, more, rfl, hd⟩ := hdigits.exists_cons
  obtain ⟨c, cs, hs, hblank | rfl⟩ := front_of_trimLeft htrim
  · exact ⟨c, cs, hs, .inl hblank⟩
  · exact ⟨c, cs, hs, .inr hd⟩

/-- A letter stays one when its case is folded, and nothing else becomes one. -/
theorem isAlpha_of_toLower {c : Char} (h : c.toLower.isLower = true) : c.isAlpha = true := by
  unfold Char.toLower at h
  split at h
  · rename_i hupper
    exact Bool.or_eq_true_iff.mpr (.inl (decide_eq_true hupper))
  · exact Bool.or_eq_true_iff.mpr (.inr h)

/-- A word that begins with a letter is read from a text that does. -/
theorem front_of_dropWord {l : Char} {word s rest : List Char} (hl : l.isLower = true)
    (h : dropWord (l :: word) s = some rest) :
    ∃ c cs, s = c :: cs ∧ Mark.letter.holds c = true := by
  unfold dropWord at h
  split at h
  · rename_i hlower
    cases s with
    | nil => simp [Text.lower] at hlower
    | cons c cs =>
        refine ⟨c, cs, rfl, isAlpha_of_toLower ?_⟩
        have hc : c.toLower = l := by simpa [Text.lower] using (List.cons.inj hlower).1
        rw [hc, hl]
  · cases h

private theorem front_of_readMonthName {n : Nat} {s rest : List Char}
    (h : readMonthName s = some (n, rest)) :
    ∃ c cs, s = c :: cs ∧ Mark.letter.holds c = true := by
  have hletters : ∀ name ∈ monthNames.zipIdx 1, ∃ l word, name.1.1.toList = l :: word ∧
      l.isLower = true := by
    simp [monthNames]
  obtain ⟨name, hname, hread⟩ := List.exists_of_findSome?_eq_some h
  obtain ⟨after, hshort, -⟩ := Option.map_eq_some_iff.mp hread
  obtain ⟨l, word, hword, hl⟩ := hletters name hname
  exact front_of_dropWord hl (hword ▸ hshort)

private theorem Item.marks_shortNumber {item : Item} (h : item.isShortNumber = true) :
    item.marks = [.space, .digit] := by
  cases item with
  | year | fraction | monthName | meridiem | blank | char => cases h
  | _ => rfl

theorem Item.front {item : Item} {s rest : List Char} (h : item.rest? s = some rest) :
    (∃ c cs, s = c :: cs ∧ ∃ m ∈ item.marks, m.holds c = true) ∨
      (item.isOptional = true ∧ rest = s) := by
  by_cases hshort : item.isShortNumber = true
  · rw [item.rest?_shortNumber hshort] at h
    obtain ⟨⟨n, after⟩, hread, -⟩ := Option.map_eq_some_iff.mp h
    obtain ⟨c, cs, hs, hc⟩ := front_of_readNumber hread
    exact .inl ⟨c, cs, hs, by simpa [item.marks_shortNumber hshort] using hc⟩
  cases item with
  | year =>
      rw [rest?_year] at h
      obtain ⟨⟨year, after⟩, hread, -⟩ := Option.map_eq_some_iff.mp h
      left
      rcases readYear_cases hread with ⟨c, cs, htrim, hsign⟩ | ⟨n, hnumber⟩
      · obtain ⟨d, ds, hs, hblank | rfl⟩ := front_of_trimLeft htrim
        · exact ⟨d, ds, hs, .space, by simp [marks], hblank⟩
        · exact ⟨d, ds, hs, .sign, by simp [marks], hsign⟩
      · obtain ⟨c, cs, htrim, hc⟩ := front_of_readNumber hnumber
        obtain ⟨d, ds, hs, hblank | rfl⟩ := front_of_trimLeft htrim
        · exact ⟨d, ds, hs, .space, by simp [marks], hblank⟩
        · rcases hc with hc | hc
          · exact ⟨d, ds, hs, .space, by simp [marks], hc⟩
          · exact ⟨d, ds, hs, .digit, by simp [marks], hc⟩
  | monthName =>
      obtain ⟨⟨parts, after⟩, hread, -⟩ := Option.map_eq_some_iff.mp h
      obtain ⟨⟨n, after⟩, hname, -⟩ := Option.map_eq_some_iff.mp hread
      obtain ⟨c, cs, hs, hc⟩ := front_of_readMonthName hname
      exact .inl ⟨c, cs, hs, .letter, List.mem_singleton_self _, hc⟩
  | meridiem =>
      left
      simp only [rest?, read] at h
      cases hmorning : dropWord ['a', 'm'] s with
      | some after =>
          obtain ⟨c, cs, hs, hc⟩ := front_of_dropWord (by decide) hmorning
          exact ⟨c, cs, hs, .letter, List.mem_singleton_self _, hc⟩
      | none =>
          cases hevening : dropWord ['p', 'm'] s with
          | some after =>
              obtain ⟨c, cs, hs, hc⟩ := front_of_dropWord (by decide) hevening
              exact ⟨c, cs, hs, .letter, List.mem_singleton_self _, hc⟩
          | none => simp [hmorning, hevening] at h
  | fraction =>
      simp only [rest?, read] at h
      split at h
      · rename_i after
        exact .inl ⟨'.', after, rfl, .char '.', List.mem_singleton_self _, rfl⟩
      · exact .inr ⟨rfl, (Option.some.inj h).symm⟩
  | blank =>
      obtain rfl : Text.trimLeft s = rest := Option.some.inj h
      cases s with
      | nil => exact .inr ⟨rfl, rfl⟩
      | cons c cs =>
          cases hblank : Text.isBlank c with
          | true => exact .inl ⟨c, cs, rfl, .space, List.mem_singleton_self _, hblank⟩
          | false => exact .inr ⟨rfl, Text.trimLeft_cons_of_not_blank hblank cs⟩
  | char d =>
      cases s with
      | nil => cases h
      | cons c cs =>
          simp only [rest?, read] at h
          split at h
          · rename_i hc
            exact .inl ⟨c, cs, rfl, .char d, List.mem_singleton_self _, by simp [Mark.holds, hc]⟩
          · cases h
  | _ => exact absurd rfl hshort

namespace Pattern

/-- What a text can begin with that fits a pattern. -/
def marks : Pattern → List Mark
  | [] => []
  | item :: p => item.marks ++ if item.isOptional then marks p else []

/-- Whether the empty text may fit a pattern. -/
def isOptional (p : Pattern) : Bool :=
  p.all Item.isOptional

theorem Fits.front {p : Pattern} {s : List Char} (h : p.Fits s) :
    (∃ c cs, s = c :: cs ∧ ∃ m ∈ p.marks, m.holds c = true) ∨ (s = [] ∧ p.isOptional = true) := by
  induction p with
  | nil => exact .inr ⟨Option.some.inj h, rfl⟩
  | cons item p ih =>
      obtain ⟨rest, hitem, hrest⟩ := Option.bind_eq_some_iff.mp h
      rcases Item.front hitem with ⟨c, cs, hs, m, hm, hc⟩ | ⟨hoptional, rfl⟩
      · exact .inl ⟨c, cs, hs, m, List.mem_append_left _ hm, hc⟩
      · rcases ih hrest with ⟨c, cs, hs, m, hm, hc⟩ | ⟨hs, hall⟩
        · refine .inl ⟨c, cs, hs, m, ?_, hc⟩
          rw [marks, if_pos hoptional]
          exact List.mem_append_right _ hm
        · refine .inr ⟨hs, ?_⟩
          rw [isOptional, List.all_cons, hoptional, Bool.true_and]
          exact hall

/-! ### The test

Patterns are compared item by item.  Of two short numbers, or of a number and a year without a
sign, each may take the other's digits, so there the test goes on only where both are sure to
have taken the whole run.
-/

/-- Whether no text can begin as both patterns ask for. -/
def differs (p q : Pattern) : Bool :=
  p.marks.all (fun m => q.marks.all m.excludes) && !(p.isOptional && q.isOptional)

/-- Whether no text that fits a pattern begins with a digit. -/
def endsDigits (p : Pattern) : Bool :=
  p.marks.all fun m => m.excludes .digit

/-- Whether no text can fit both patterns, as far as this can be told from where they part. -/
def apart : Pattern → Pattern → Bool
  | item :: p, other :: q =>
    if item = other then apart p q
    else differs (item :: p) (other :: q) ||
      item.sharesDigits other && endsDigits p && endsDigits q && apart p q
  | p, q => differs p q

theorem not_fits_of_differs {p q : Pattern} (h : p.differs q = true) {s : List Char}
    (hp : p.Fits s) : ¬ q.Fits s := by
  intro hq
  rw [differs, Bool.and_eq_true, List.all_eq_true] at h
  obtain ⟨hmarks, hempty⟩ := h
  rcases hp.front with ⟨c, cs, rfl, m, hm, hc⟩ | ⟨rfl, hnil⟩
  · rcases hq.front with ⟨d, ds, hs, n, hn, hd⟩ | ⟨hs, -⟩
    · obtain rfl := (List.cons.inj hs).1
      have hexcludes := List.all_eq_true.mp (hmarks m hm) n hn
      rw [Mark.excludes_sound hexcludes hc] at hd
      cases hd
    · cases hs
  · rcases hq.front with ⟨d, ds, hs, -⟩ | ⟨-, hnil'⟩
    · cases hs
    · rw [hnil, hnil'] at hempty
      cases hempty

theorem Fits.endsDigits {p : Pattern} (h : p.endsDigits = true) {s : List Char} (hp : p.Fits s) :
    EndsDigits s := by
  rcases hp.front with ⟨c, cs, rfl, m, hm, hc⟩ | ⟨rfl, -⟩
  · have hexcludes := List.all_eq_true.mp h m hm
    exact Text.endsDigits_cons (Mark.excludes_sound hexcludes hc) cs
  · exact Text.endsDigits_nil

end Pattern

/-- A number that no digit follows is the whole run of digits. -/
theorem rest_of_readNumber {most n : Nat} {s rest : List Char}
    (h : readNumber most s = some (n, rest)) (hrest : EndsDigits rest) :
    rest = (Text.trimLeft s).dropWhile Char.isDigit := by
  obtain ⟨ds, hdigits, htrim⟩ := exists_of_readNumber h
  rw [htrim]
  exact (congrArg Prod.snd (Text.takeAllDigits_eq hdigits.all hrest)).symm

theorem Item.rest_of_shortNumber {item : Item} {s rest : List Char}
    (hitem : item.isShortNumber = true) (h : item.rest? s = some rest) (hrest : EndsDigits rest) :
    rest = (Text.trimLeft s).dropWhile Char.isDigit ∧
      ∃ c cs, Text.trimLeft s = c :: cs ∧ c.isDigit = true := by
  rw [item.rest?_shortNumber hitem] at h
  obtain ⟨⟨n, after⟩, hread, rfl⟩ := Option.map_eq_some_iff.mp h
  obtain ⟨ds, hdigits, htrim⟩ := exists_of_readNumber hread
  obtain ⟨d, more, rfl, hd⟩ := hdigits.exists_cons
  exact ⟨rest_of_readNumber hread hrest, d, more ++ after, htrim, hd⟩

theorem Item.rest_of_year {s rest : List Char} (h : Item.year.rest? s = some rest)
    (hrest : EndsDigits rest) {c : Char} {cs : List Char} (htrim : Text.trimLeft s = c :: cs)
    (hc : c.isDigit = true) : rest = (Text.trimLeft s).dropWhile Char.isDigit := by
  rw [rest?_year] at h
  obtain ⟨⟨year, after⟩, hread, rfl⟩ := Option.map_eq_some_iff.mp h
  rcases readYear_cases hread with ⟨d, ds, htrim', hsign⟩ | ⟨n, hnumber⟩
  · rw [htrim] at htrim'
    obtain rfl := (List.cons.inj htrim').1
    have hsame : Mark.sign = .digit :=
      Mark.eq_of_holds hsign hc (fun _ => Mark.noConfusion) fun _ => Mark.noConfusion
    cases hsame
  · have heq := rest_of_readNumber hnumber hrest
    rwa [trimLeft_trimLeft] at heq

/-- Two numbers that start in the same place and that no digit follows end in the same place. -/
theorem Item.rest_eq_of_sharesDigits {item other : Item} (h : item.sharesDigits other = true)
    {s rest rest' : List Char} (hitem : item.rest? s = some rest)
    (hother : other.rest? s = some rest') (hrest : EndsDigits rest) (hrest' : EndsDigits rest') :
    rest = rest' := by
  simp only [sharesDigits, Bool.or_eq_true, Bool.and_eq_true, decide_eq_true_eq] at h
  rcases h with ⟨hshort, hshort' | rfl⟩ | ⟨rfl, hshort'⟩
  · rw [(rest_of_shortNumber hshort hitem hrest).1, (rest_of_shortNumber hshort' hother hrest').1]
  · obtain ⟨heq, c, cs, htrim, hc⟩ := rest_of_shortNumber hshort hitem hrest
    rw [heq, rest_of_year hother hrest' htrim hc]
  · obtain ⟨heq, c, cs, htrim, hc⟩ := rest_of_shortNumber hshort' hother hrest'
    rw [heq, rest_of_year hitem hrest htrim hc]

/-- No text fits two patterns that pass the test. -/
theorem Pattern.apart_sound {p q : Pattern} (h : apart p q = true) {s : List Char}
    (hp : p.Fits s) : ¬ q.Fits s := by
  fun_induction apart p q generalizing s with
  | case1 item p q ih =>
      intro hq
      obtain ⟨rest, hitem, hrest⟩ := Option.bind_eq_some_iff.mp hp
      obtain ⟨rest', hitem', hrest'⟩ := Option.bind_eq_some_iff.mp hq
      obtain rfl := Option.some.inj (hitem.symm.trans hitem')
      exact ih h hrest hrest'
  | case2 item p other q _ ih =>
      rw [Bool.or_eq_true] at h
      rcases h with hdiffers | hshared
      · exact not_fits_of_differs hdiffers hp
      · intro hq
        simp only [Bool.and_eq_true] at hshared
        obtain ⟨⟨⟨hshares, hend⟩, hend'⟩, happart⟩ := hshared
        obtain ⟨rest, hitem, hrest⟩ := Option.bind_eq_some_iff.mp hp
        obtain ⟨rest', hitem', hrest'⟩ := Option.bind_eq_some_iff.mp hq
        obtain rfl := Item.rest_eq_of_sharesDigits hshares hitem hitem'
          (Fits.endsDigits hend hrest) (Fits.endsDigits hend' hrest')
        exact ih happart hrest hrest'
  | case3 p q _ => exact not_fits_of_differs h hp

end Calendar

end FilterSelect
