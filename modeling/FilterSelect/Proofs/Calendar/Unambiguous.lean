/-
No text is a moment in two ways.

A moment can be written in nineteen ways: by one of twelve patterns for a day with a time,
as a timestamp, or by one of six patterns for a day alone.  The reader tries them in a
fixed order and takes the first that fits.  That order could decide what a text means.  It
does not: no two of the ways fit the same text, so the ways can be tried in any order.

For the patterns this is a computation (`Pattern.apart`).  Timestamps are stricter than
patterns, but each of them fits one of fifteen patterns, made of a date, a separator, a
clock and an offset.  These are set apart from the others by the same test.
-/
import FilterSelect.Calendar.Reader
import FilterSelect.Proofs.Calendar.Apart
import Mathlib.Data.List.Forall2

namespace FilterSelect

namespace Calendar

/-! ### Timestamps as patterns -/

/-- What may stand between the date and the time of a timestamp. -/
def separators : List Item :=
  [.char 'T', .char 't', .blank]

/-- The ways to write an offset. -/
def offsets : List Pattern :=
  [[.char 'Z'], [.char 'z']] ++ ['+', '-', '\u2212'].map fun sign => .char sign :: shortClock

/-- Patterns that timestamps fit, and other texts too. -/
def timestampPatterns : List Pattern :=
  separators.flatMap fun separator =>
    offsets.map fun offset => hyphenDate ++ separator :: fullClock ++ offset

theorem Pattern.rest?_append (p q : Pattern) (s : List Char) :
    Pattern.rest? (p ++ q) s = (p.rest? s).bind q.rest? := by
  induction p generalizing s with
  | nil => rfl
  | cons item p ih =>
      rw [List.cons_append, Pattern.rest?, Pattern.rest?]
      cases item.rest? s with
      | none => rfl
      | some rest => exact ih rest

private theorem exists_of_readExactly {count n : Nat} {s rest : List Char} (hcount : 0 < count)
    (h : readExactly count s = some (n, rest)) :
    readNumber count s = some (n, rest) ∧ ∃ c cs, s = c :: cs ∧ c.isDigit = true := by
  simp only [readExactly, Option.ite_none_right_eq_some, Option.some.injEq, Prod.mk.injEq] at h
  obtain ⟨hlength, rfl, rfl⟩ := h
  cases htake : (Text.takeDigits count s).1 with
  | nil =>
      rw [htake] at hlength
      exact absurd hlength (by simpa using (Nat.ne_of_gt hcount).symm)
  | cons d ds =>
      have hmem : d ∈ (Text.takeDigits count s).1 := htake ▸ List.mem_cons_self
      have hd : d.isDigit = true := Text.isDigit_of_mem_takeDigits hmem
      have hs : s = d :: (ds ++ (Text.takeDigits count s).2) := by
        have happend := Text.takeDigits_append count s
        rw [htake] at happend
        exact happend.symm
      have htrim : Text.trimLeft s = s := by
        rw [hs, Text.trimLeft_cons_of_not_blank (Text.isBlank_of_isDigit hd)]
      refine ⟨?_, d, _, hs, hd⟩
      rw [readNumber, htrim]
      split
      · rename_i heq
        rw [heq] at htake
        cases htake
      · rename_i heq
        rw [← htake, heq]

private theorem rest?_of_readExactly (item : Item) (hitem : item.isShortNumber = true) {n : Nat}
    {s rest : List Char} (h : readExactly 2 s = some (n, rest)) : item.rest? s = some rest := by
  rw [Item.rest?_shortNumber hitem, (exists_of_readExactly (by decide) h).1, Option.map_some]

private theorem rest?_year_of_readExactly {n : Nat} {s rest : List Char}
    (h : readExactly 4 s = some (n, rest)) : Item.year.rest? s = some rest := by
  obtain ⟨hnumber, c, cs, rfl, hc⟩ := exists_of_readExactly (by decide) h
  rw [Item.rest?_year, readYear, Text.trimLeft_cons_of_not_blank (Text.isBlank_of_isDigit hc)]
  split
  · rename_i heq
    cases heq
    exact absurd hc (by decide)
  · rename_i heq
    cases heq
    exact absurd hc (by decide)
  · rw [hnumber]
    rfl

private theorem rest?_of_expect {c : Char} {s rest : List Char} (h : expect c s = some rest) :
    (Item.char c).rest? s = some rest := by
  cases s with
  | nil => cases h
  | cons d s =>
      rw [expect] at h
      simp only [Item.rest?, Item.read]
      split at h
      · rename_i hd
        cases h
        rw [if_pos hd]
        rfl
      · cases h

private theorem rest?_of_readFraction {n : Nat} {s rest : List Char}
    (h : readFraction s = some (n, rest)) : Item.fraction.rest? s = some rest := by
  unfold readFraction at h
  split at h
  · obtain ⟨⟨ds, after⟩, hrun, heq⟩ := Option.map_eq_some_iff.mp h
    cases heq
    simp [Item.rest?, Item.read, hrun]
  · rename_i hpoint
    cases h
    simp only [Item.rest?, Item.read, Option.map_some]

/-- An offset is written in one of the five ways. -/
theorem exists_offset {s : List Char} {offset : Int} (h : readOffset s = some offset) :
    ∃ p ∈ offsets, Pattern.Fits p s := by
  unfold readOffset at h
  split at h
  · exact ⟨[.char 'Z'], by decide, rfl⟩
  · exact ⟨[.char 'z'], by decide, rfl⟩
  · rename_i sign rest _ _
    have hsign : sign = '+' ∨ sign = '-' ∨ sign = '\u2212' := by
      by_contra hnone
      simp only [not_or] at hnone
      simp [hnone] at h
    have hclock : Pattern.rest? shortClock rest = some [] := by
      have hparts : ∃ hours afterHours, readExactly 2 rest = some (hours, afterHours) ∧
          ∃ afterColon, expect ':' afterHours = some afterColon ∧
            ∃ minutes, readExactly 2 afterColon = some (minutes, []) := by
        rcases hsign with rfl | rfl | rfl
        all_goals
          simp only [reduceIte, Char.reduceEq, or_true, or_false, bind, Option.bind_some,
            Option.bind_eq_some_iff, Option.ite_none_right_eq_some] at h
          obtain ⟨⟨hours, afterHours⟩, hhours, afterColon, hcolon, ⟨minutes, _⟩, hminutes,
            ⟨rfl, -⟩, -⟩ := h
          exact ⟨hours, afterHours, hhours, afterColon, hcolon, minutes, hminutes⟩
      obtain ⟨hours, afterHours, hhours, afterColon, hcolon, minutes, hminutes⟩ := hparts
      simp [shortClock, Pattern.rest?, rest?_of_readExactly .hour rfl hhours,
        rest?_of_expect hcolon, rest?_of_readExactly .minute rfl hminutes]
    refine ⟨.char sign :: shortClock, ?_, ?_⟩
    · rcases hsign with rfl | rfl | rfl <;> decide
    · simpa [Pattern.Fits, Pattern.rest?, Item.rest?, Item.read] using hclock
  · cases h

private theorem exists_timestampPattern {s : List Char} {t : DateTime}
    (h : readTimestamp s = some t) :
    ∃ p ∈ timestampPatterns, Pattern.Fits p s := by
  obtain ⟨⟨shown, offset⟩, hlocal, -⟩ := Option.bind_eq_some_iff.mp h
  unfold readLocal at hlocal
  obtain ⟨⟨year, _⟩, hyear, hlocal⟩ := Option.bind_eq_some_iff.mp hlocal
  obtain ⟨_, hhyphen, hlocal⟩ := Option.bind_eq_some_iff.mp hlocal
  obtain ⟨⟨month, _⟩, hmonth, hlocal⟩ := Option.bind_eq_some_iff.mp hlocal
  obtain ⟨_, hhyphen', hlocal⟩ := Option.bind_eq_some_iff.mp hlocal
  obtain ⟨⟨day, behind⟩, hday, hlocal⟩ := Option.bind_eq_some_iff.mp hlocal
  have hdate : Pattern.rest? hyphenDate s = some behind := by
    simp [hyphenDate, Pattern.rest?, rest?_year_of_readExactly hyear, rest?_of_expect hhyphen,
      rest?_of_readExactly .month rfl hmonth, rest?_of_expect hhyphen',
      rest?_of_readExactly .day rfl hday]
  obtain ⟨c, clock, rfl⟩ : ∃ c clock, behind = c :: clock := by
    cases behind with
    | nil => cases hlocal
    | cons c clock => exact ⟨c, clock, rfl⟩
  obtain ⟨hc, hlocal⟩ := Option.ite_none_right_eq_some.mp hlocal
  obtain ⟨⟨hour, _⟩, hhour, hlocal⟩ := Option.bind_eq_some_iff.mp hlocal
  obtain ⟨_, hcolon, hlocal⟩ := Option.bind_eq_some_iff.mp hlocal
  obtain ⟨⟨minute, _⟩, hminute, hlocal⟩ := Option.bind_eq_some_iff.mp hlocal
  obtain ⟨_, hcolon', hlocal⟩ := Option.bind_eq_some_iff.mp hlocal
  obtain ⟨⟨second, _⟩, hsecond, hlocal⟩ := Option.bind_eq_some_iff.mp hlocal
  obtain ⟨⟨nano, zone⟩, hfraction, hlocal⟩ := Option.bind_eq_some_iff.mp hlocal
  obtain ⟨_, hoffset, -⟩ := Option.bind_eq_some_iff.mp hlocal
  have hclock : Pattern.rest? fullClock clock = some zone := by
    simp [fullClock, Pattern.rest?, rest?_of_readExactly .hour rfl hhour, rest?_of_expect hcolon,
      rest?_of_readExactly .minute rfl hminute, rest?_of_expect hcolon',
      rest?_of_readExactly .second rfl hsecond, rest?_of_readFraction hfraction]
  obtain ⟨zonePattern, hzonePattern, hzone⟩ := exists_offset hoffset
  -- a blank takes no more than itself, since a digit comes right behind it
  have hseparator : ∃ item ∈ separators, item.rest? (c :: clock) = some clock := by
    rcases hc with rfl | rfl | rfl
    · exact ⟨.char 'T', by decide, rfl⟩
    · exact ⟨.char 't', by decide, rfl⟩
    · refine ⟨.blank, by decide, ?_⟩
      obtain ⟨-, d, ds, rfl, hd⟩ := exists_of_readExactly (by decide) hhour
      simp [Item.rest?, Item.read, Text.trimLeft_cons_of_blank (c := ' ') (by decide),
        Text.trimLeft_cons_of_not_blank (Text.isBlank_of_isDigit hd)]
  obtain ⟨separator, hmem, hrest⟩ := hseparator
  refine ⟨hyphenDate ++ separator :: fullClock ++ zonePattern, ?_, ?_⟩
  · exact List.mem_flatMap.mpr ⟨separator, hmem, List.mem_map_of_mem hzonePattern⟩
  · rw [Pattern.Fits, Pattern.rest?_append, Pattern.rest?_append, hdate, Option.bind_some,
      Pattern.rest?, hrest, Option.bind_some, hclock, Option.bind_some]
    exact hzone

/-! ### All ways to write a moment -/

/-- The nineteen ways to read a moment, in the order in which they are tried. -/
def ways : List (List Char → Option DateTime) :=
  dateTimePatterns.map Pattern.dateTime? ++
    readTimestamp :: datePatterns.map fun p s => (p.date? s).map Keyword.startOf

/-- Reading a moment in the first of some ways that fits. -/
def readMomentBy (ways : List (List Char → Option DateTime)) (reading : DateTime)
    (s : List Char) : Except Fault DateTime :=
  match Keyword.ofText? s with
  | some k =>
    match k.moment? reading with
    | some moment => .ok moment
    | none => .error (.outOfRange (String.ofList s))
  | none =>
    match ways.findSome? (· s) with
    | some moment => .ok moment
    | none => .error (.unrecognised (String.ofList s))

private theorem readAbsolute?_eq_findSome? (s : List Char) :
    readAbsolute? s = ways.findSome? (· s) := by
  simp only [readAbsolute?, ways, List.findSome?_append, List.findSome?_map, List.findSome?_cons,
    List.map_findSome?, Function.comp_def]
  cases dateTimePatterns.findSome? fun pattern => pattern.dateTime? s with
  | some t => rfl
  | none => cases readTimestamp s <;> rfl

theorem readDateTime_eq (reading : DateTime) (s : List Char) :
    readDateTime reading s = readMomentBy ways reading (Text.trim s) := by
  rewrite [readDateTime, readMoment, readMomentBy, readAbsolute?_eq_findSome?]
  cases Keyword.ofText? (Text.trim s) with
  | some k => cases k.moment? reading <;> rfl
  | none => cases ways.findSome? (· (Text.trim s)) <;> rfl

/-- The patterns that a text fits one of if it is read in each of the ways. -/
def forms : List (List Pattern) :=
  dateTimePatterns.map ([·]) ++ timestampPatterns :: datePatterns.map ([·])

/-- Patterns of different ways have no text in common. -/
theorem pairwise_forms : forms.Pairwise fun ps qs =>
    (ps.all fun p => qs.all fun q => Pattern.apart p q) = true := by
  decide +kernel

theorem forall₂_forms (s : List Char) :
    List.Forall₂ (fun read ps => ∀ t, read s = some t → ∃ p ∈ ps, Pattern.Fits p s) ways forms := by
  refine List.rel_append ?_ (.cons ?_ ?_)
  · rw [List.forall₂_map_left_iff, List.forall₂_map_right_iff, List.forall₂_same]
    intro p _ t ht
    exact ⟨p, List.mem_singleton_self p, Pattern.fits_of_dateTime? ht⟩
  · intro t ht
    exact exists_timestampPattern ht
  · rw [List.forall₂_map_left_iff, List.forall₂_map_right_iff, List.forall₂_same]
    intro p _ t ht
    obtain ⟨d, hd, -⟩ := Option.map_eq_some_iff.mp ht
    exact ⟨p, List.mem_singleton_self p, Pattern.fits_of_date? hd⟩

/-- At most one way fits a text. -/
theorem pairwise_ways (s : List Char) :
    ways.Pairwise fun read read' => read s = none ∨ read' s = none := by
  rw [List.pairwise_iff_getElem]
  intro i j hi hj hlt
  have hlength := (forall₂_forms s).length_eq
  have happart := List.pairwise_iff_getElem.mp pairwise_forms i j (hlength ▸ hi) (hlength ▸ hj) hlt
  cases hread : ways[i] s with
  | none => exact .inl rfl
  | some t =>
      right
      rw [Option.eq_none_iff_forall_ne_some]
      intro t' hread'
      obtain ⟨p, hp, hfits⟩ := (forall₂_forms s).get hi (hlength ▸ hi) t hread
      obtain ⟨q, hq, hfits'⟩ := (forall₂_forms s).get hj (hlength ▸ hj) t' hread'
      have htest := List.all_eq_true.mp (List.all_eq_true.mp happart p hp) q hq
      exact Pattern.apart_sound htest hfits hfits'

/-! ### Any order

Where at most one of some alternatives succeeds, it is the one that is found, wherever it
stands.
-/

section Alternatives

variable {α β : Type} {f : α → Option β} {xs ys : List α}

theorem findSome?_eq_of_perm (h : xs.Perm ys)
    (hone : xs.Pairwise fun a b => f a = none ∨ f b = none) :
    xs.findSome? f = ys.findSome? f := by
  induction h with
  | nil => rfl
  | cons x _ ih => rw [List.findSome?_cons, List.findSome?_cons, ih hone.of_cons]
  | swap x y l =>
      have hxy := List.rel_of_pairwise_cons hone List.mem_cons_self
      rcases hxy with hy | hx
      · simp only [List.findSome?_cons, hy]
      · simp only [List.findSome?_cons, hx]
  | trans h _ ih ih' =>
      exact (ih hone).trans (ih' (h.pairwise hone fun hab => hab.symm))

theorem findSome?_eq_of_mem {a : α} {b : β} (ha : a ∈ xs) (hb : f a = some b)
    (hone : xs.Pairwise fun a b => f a = none ∨ f b = none) : xs.findSome? f = some b := by
  obtain ⟨before, after, rfl⟩ := List.append_of_mem ha
  rw [findSome?_eq_of_perm List.perm_middle hone, List.findSome?_cons, hb]

end Alternatives

/-- A way that fits is the one that counts. -/
theorem readDateTime_of_mem {read : List Char → Option DateTime} (hread : read ∈ ways)
    {s : List Char} {t : DateTime} (h : read (Text.trim s) = some t)
    (hkeyword : Keyword.ofText? (Text.trim s) = none) (reading : DateTime) :
    readDateTime reading s = .ok t := by
  rw [readDateTime_eq, readMomentBy, hkeyword,
    findSome?_eq_of_mem (f := (· (Text.trim s))) hread h (pairwise_ways _)]

/--
**No text is a moment in two ways, so the order in which the ways are tried is of no matter.**

At most one of the twelve patterns for a day with a time, the timestamps and the six patterns
for a day alone fits a text.  Trying them in any other order, within the two tables or across
them, comes to the same moment or the same fault.  A text that fits a pattern for a day alone
and is no keyword is that day as a date, and its midnight as a moment.
-/
theorem readDateTime_unambiguous (s : List Char) :
    (ways.Pairwise fun read read' => read s = none ∨ read' s = none) ∧
      (∀ order, order.Perm ways → ∀ reading,
        readMomentBy order reading (Text.trim s) = readDateTime reading s) ∧
      ∀ p ∈ datePatterns, ∀ d, Pattern.date? p (Text.trim s) = some d →
        Keyword.ofText? (Text.trim s) = none → ∀ reading,
          readDateTime reading s = .ok ⟨d, Time.midnight⟩ ∧ readDate reading s = .ok d := by
  refine ⟨pairwise_ways s, ?_, ?_⟩
  · intro order horder reading
    have hone := pairwise_ways (Text.trim s)
    rw [readDateTime_eq, readMomentBy, readMomentBy,
      findSome?_eq_of_perm horder.symm hone]
  · intro p hp d hd hkeyword reading
    have hmem : (fun s => (Pattern.date? p s).map Keyword.startOf) ∈ ways :=
      List.mem_append_right _ (List.mem_cons_of_mem _ (List.mem_map_of_mem hp))
    have hmoment := readDateTime_of_mem hmem (by rw [hd]; rfl) hkeyword reading
    refine ⟨hmoment, ?_⟩
    rw [readDate, hmoment]
    rfl

/-- The day of the texts below. -/
def saturday : Date := ⟨1985, 10, 26, by decide⟩

/-- Last or first among the ways, a day alone is its midnight. -/
theorem readDateTime_saturday :
    readMomentBy ways.reverse ⟨saturday, Time.midnight⟩ "26 October 1985".toList =
        .ok ⟨saturday, Time.midnight⟩ ∧
      readDateTime ⟨saturday, Time.midnight⟩ " 26 Oct1985".toList =
        .ok ⟨saturday, Time.midnight⟩ ∧
      readDate ⟨saturday, Time.midnight⟩ " 26 Oct1985".toList = .ok saturday := by
  obtain ⟨-, horder, hday⟩ := readDateTime_unambiguous "26 October 1985".toList
  obtain ⟨-, -, hday'⟩ := readDateTime_unambiguous " 26 Oct1985".toList
  have hmem : [Item.day, .blank, .monthName, .blank, .year] ∈ datePatterns := by decide
  refine ⟨?_, hday' _ hmem saturday (by decide +kernel) (by decide +kernel) _⟩
  have hreverse := horder ways.reverse ways.reverse_perm ⟨saturday, Time.midnight⟩
  rw [show Text.trim "26 October 1985".toList = "26 October 1985".toList by decide +kernel]
    at hreverse
  exact hreverse.trans (hday _ hmem saturday (by decide +kernel) (by decide +kernel) _).1

end Calendar

end FilterSelect
