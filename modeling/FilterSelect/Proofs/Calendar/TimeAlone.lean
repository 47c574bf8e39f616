/-
A time of day is read from a time alone or from a moment, and no text is both.

The reader of times tries the four patterns for a time alone before it looks for a moment.
These patterns are lenient, so they might take a text that carries a day or an offset and
drop it.  They do not: no text fits one of them and is a moment in any of its nineteen
ways.  Nor does a text fit two of the four, so their order is of no matter either.

Most pairs are told apart by the test for patterns (`Pattern.apart`).  It stops short of one
pair, the clock with seconds in front of a day and the one in front of `am` or `pm`: a blank
may follow the seconds in both, but in one of them a fraction may come first.  A text that
goes on with a blank has no fraction, and behind the blank a day and a half of the day
begin differently.
-/
import FilterSelect.Proofs.Calendar.Unambiguous

namespace FilterSelect

namespace Calendar

/-! ### Clocks with seconds -/

/-- What stands behind the hour of a clock with seconds. -/
def behindHour : Pattern := [.char ':', .minute, .char ':', .second]

/-- A clock of half a day with seconds. -/
def halfDayClock : Pattern := .halfDayHour :: behindHour ++ [.blank, .meridiem]

/-- A clock with seconds in front of a day. -/
def datedClock : Pattern := fullClock ++ .blank :: hyphenDate

private theorem rest?_halfDayHour (s : List Char) : Item.halfDayHour.rest? s = Item.hour.rest? s :=
    by
  rw [Item.rest?_shortNumber rfl, Item.rest?_shortNumber rfl]

private theorem Pattern.Fits.of_fraction {p : Pattern} {c : Char} {s : List Char} (hc : c ≠ '.')
    (h : Pattern.Fits (.fraction :: p) (c :: s)) : p.Fits (c :: s) := by
  have hrest : Item.fraction.rest? (c :: s) = some (c :: s) := by
    simp only [Item.rest?, Item.read]
    split
    · rename_i heq
      exact absurd (List.cons.inj heq).1 hc
    · rfl
  rwa [Pattern.Fits, Pattern.rest?, hrest, Option.bind_some] at h

/-- Behind its seconds a clock goes on with a day or with a half of the day, not with both. -/
theorem not_fits_halfDayClock {s : List Char} (h : datedClock.Fits s) : ¬ halfDayClock.Fits s := by
  intro h'
  have hdated : datedClock = .hour :: (behindHour ++ .fraction :: .blank :: hyphenDate) := rfl
  have hhalf : halfDayClock = .halfDayHour :: (behindHour ++ [.blank, .meridiem]) := rfl
  -- both leave the same text behind the seconds
  rw [hdated, Pattern.Fits, Pattern.rest?, Option.bind_eq_some_iff] at h
  rw [hhalf, Pattern.Fits, Pattern.rest?, rest?_halfDayHour, Option.bind_eq_some_iff] at h'
  obtain ⟨afterHour, hhour, h⟩ := h
  obtain ⟨afterHour', hhour', h'⟩ := h'
  obtain rfl := Option.some.inj (hhour.symm.trans hhour')
  rw [Pattern.rest?_append, Option.bind_eq_some_iff] at h h'
  obtain ⟨behind, hbehind, hday⟩ := h
  obtain ⟨behind', hbehind', hmeridiem⟩ := h'
  obtain rfl := Option.some.inj (hbehind.symm.trans hbehind')
  have hfits : Pattern.Fits [.blank, .meridiem] behind := hmeridiem
  rcases hfits.front with ⟨c, cs, rfl, m, hm, hc⟩ | ⟨-, hoptional⟩
  · have hpoint : c ≠ '.' := by
      rintro rfl
      have hexcludes : ∀ m ∈ Pattern.marks [.blank, .meridiem], m.holds '.' = false := by decide
      rw [hexcludes m hm] at hc
      cases hc
    have happart : Pattern.apart (.blank :: hyphenDate) [.blank, .meridiem] = true := by decide
    exact Pattern.apart_sound happart (Pattern.Fits.of_fraction hpoint hday) hfits
  · cases hoptional

/-! ### A time alone

All pairs but one are settled by the test for patterns, which is a computation.
-/

private theorem Pattern.fits_of_time? {p : Pattern} {s : List Char} {t : Time}
    (h : p.time? s = some t) :
    p.Fits s := by
  obtain ⟨parts, hparts, -⟩ := Option.bind_eq_some_iff.mp h
  exact fits_of_parts? hparts

/-- The test tells times alone from all ways to write a moment, but for the two clocks above. -/
theorem apart_timePatterns : ∀ p ∈ timePatterns, ∀ q ∈ forms.flatten,
    Pattern.apart p q = true ∨ (p = halfDayClock ∧ q = datedClock) := by
  decide +kernel

theorem time?_eq_none_or {p : Pattern} (hp : p ∈ timePatterns) {read : List Char → Option DateTime}
    (hread : read ∈ ways) (s : List Char) : p.time? s = none ∨ read s = none := by
  cases htime : p.time? s with
  | none => exact .inl rfl
  | some t =>
      right
      rw [Option.eq_none_iff_forall_ne_some]
      intro moment hmoment
      obtain ⟨i, hi, rfl⟩ := List.getElem_of_mem hread
      have hforms : i < forms.length := (forall₂_forms s).length_eq ▸ hi
      obtain ⟨q, hq, hfits⟩ := (forall₂_forms s).get hi hforms moment hmoment
      have hmem : q ∈ forms.flatten := List.mem_flatten.mpr ⟨_, List.getElem_mem hforms, hq⟩
      rcases apart_timePatterns p hp q hmem with happart | ⟨rfl, rfl⟩
      · exact Pattern.apart_sound happart (Pattern.fits_of_time? htime) hfits
      · exact not_fits_halfDayClock hfits (Pattern.fits_of_time? htime)

theorem pairwise_timePatterns (s : List Char) :
    timePatterns.Pairwise fun p q => Pattern.time? p s = none ∨ Pattern.time? q s = none := by
  have happart : timePatterns.Pairwise fun p q => Pattern.apart p q = true := by decide
  refine happart.imp fun {p q} htest => ?_
  cases htime : Pattern.time? p s with
  | none => exact .inl rfl
  | some t =>
      right
      rw [Option.eq_none_iff_forall_ne_some]
      intro t' htime'
      exact Pattern.apart_sound htest (Pattern.fits_of_time? htime) (Pattern.fits_of_time? htime')

/-! ### Keywords -/

private theorem front_of_keyword {s : List Char} {k : Keyword} (h : Keyword.ofText? s = some k) :
    ∃ c cs, s = c :: cs ∧ Mark.letter.holds c = true := by
  have hname : k.name.toList = Text.lower s := by simpa using List.find?_some h
  have hfront : ∃ l word, k.name.toList = l :: word ∧ l.isLower = true := by
    cases k <;> exact ⟨_, _, rfl, rfl⟩
  obtain ⟨l, word, hword, hl⟩ := hfront
  rw [hword] at hname
  cases s with
  | nil => cases hname
  | cons c cs =>
      refine ⟨c, cs, rfl, isAlpha_of_toLower ?_⟩
      have hc : l = c.toLower := (List.cons.inj hname).1
      rw [← hc, hl]

/-- A time alone begins with a number, so it is no keyword. -/
theorem ofText?_of_time? {p : Pattern} (hp : p ∈ timePatterns) {s : List Char} {t : Time}
    (h : p.time? s = some t) : Keyword.ofText? s = none := by
  have hfront : ∀ p ∈ timePatterns,
      (p.marks.all fun m => m.excludes .letter) = true ∧ p.isOptional = false := by decide
  obtain ⟨hmarks, hoptional⟩ := hfront p hp
  rw [Option.eq_none_iff_forall_ne_some]
  intro k hk
  obtain ⟨c, cs, rfl, hletter⟩ := front_of_keyword hk
  rcases (Pattern.fits_of_time? h).front with ⟨d, ds, hs, m, hm, hd⟩ | ⟨hs, -⟩
  · obtain rfl := (List.cons.inj hs).1
    have hexcludes := List.all_eq_true.mp hmarks m hm
    rw [Mark.excludes_sound hexcludes hd] at hletter
    cases hletter
  · cases hs

/-! ### What the reader of times accepts

A text is trimmed once and then read as a time alone, or handed over whole to the reader of
moments, which trims it again.
-/

theorem readTime_of_no_time {s : List Char}
    (h : ∀ p ∈ timePatterns, Pattern.time? p (Text.trim s) = none) (reading : DateTime) :
    readTime reading s = (readDateTime reading s).map DateTime.time := by
  have hnone : (timePatterns.findSome? fun p => p.time? (Text.trim s)) = none :=
    List.findSome?_eq_none_iff.mpr h
  simp only [readTime, hnone, readDateTime]

theorem readTime_of_time? {p : Pattern} (hp : p ∈ timePatterns) {s : List Char} {t : Time}
    (h : p.time? (Text.trim s) = some t) (reading : DateTime) : readTime reading s = .ok t := by
  have hfound := findSome?_eq_of_mem (f := fun p => Pattern.time? p (Text.trim s)) hp h
    (pairwise_timePatterns _)
  simp only [readTime, hfound]

theorem readDateTime_of_time? {p : Pattern} (hp : p ∈ timePatterns) {s : List Char} {t : Time}
    (h : p.time? (Text.trim s) = some t) (reading : DateTime) :
    readDateTime reading s = .error (.unrecognised (String.ofList (Text.trim s))) := by
  have hways : ways.findSome? (· (Text.trim s)) = none := by
    rw [List.findSome?_eq_none_iff]
    intro read hread
    rcases time?_eq_none_or hp hread (Text.trim s) with hnone | hnone
    · rw [hnone] at h
      cases h
    · exact hnone
  simp only [readDateTime_eq, readMomentBy, ofText?_of_time? hp h, hways]

/--
**Times extend moments.**

A text is read as a time of day if and only if it is a moment, whose time it then is, or it
is refused as a moment and fits one of the four patterns for a time alone, which then gives
the time.  The two cases exclude each other because no text fits such a pattern and is a
moment in one of its nineteen ways, whether or not there is white space around it.
-/
theorem readTime_eq_ok_iff (reading : DateTime) (s : List Char) (t : Time) :
    (readTime reading s = .ok t ↔
      (∃ date, readDateTime reading s = .ok ⟨date, t⟩) ∨
        (readDateTime reading s = .error (.unrecognised (String.ofList (Text.trim s))) ∧
          ∃ p ∈ timePatterns, Pattern.time? p (Text.trim s) = some t)) ∧
      ∀ p ∈ timePatterns, ∀ read ∈ ways, Pattern.time? p s = none ∨ read s = none := by
  refine ⟨?_, fun p hp read hread => time?_eq_none_or hp hread s⟩
  by_cases halone : ∃ p ∈ timePatterns, ∃ t', Pattern.time? p (Text.trim s) = some t'
  · obtain ⟨p, hp, t', htime⟩ := halone
    rw [readTime_of_time? hp htime, readDateTime_of_time? hp htime]
    constructor
    · rintro h
      obtain rfl := Except.ok.inj h
      exact .inr ⟨rfl, p, hp, htime⟩
    · rintro (⟨date, h⟩ | ⟨-, q, hq, htime'⟩)
      · cases h
      · rw [← readTime_of_time? hp htime reading, readTime_of_time? hq htime']
  · have hnone : ∀ p ∈ timePatterns, Pattern.time? p (Text.trim s) = none := by
      intro p hp
      rw [Option.eq_none_iff_forall_ne_some]
      exact fun t' htime => halone ⟨p, hp, t', htime⟩
    rw [readTime_of_no_time hnone]
    constructor
    · intro h
      cases hmoment : readDateTime reading s with
      | error fault =>
          rw [hmoment] at h
          cases h
      | ok moment =>
          rw [hmoment] at h
          obtain rfl : moment.time = t := Except.ok.inj h
          exact .inl ⟨moment.date, rfl⟩
    · rintro (⟨date, h⟩ | ⟨-, p, hp, htime⟩)
      · rw [h]
        rfl
      · exact absurd ⟨p, hp, t, htime⟩ halone

/-- Four in the afternoon is a time alone and no timestamp. -/
theorem readTime_afternoon :
    readTime ⟨saturday, Time.midnight⟩ " 4:00 PM".toList = .ok ⟨16, 0, 0, 0, by decide⟩ ∧
      readTimestamp "4:00 PM".toList = none := by
  have hmem : [.halfDayHour, .char ':', .minute, .blank, .meridiem] ∈ timePatterns := by decide
  have hway : readTimestamp ∈ ways := List.mem_append_right _ List.mem_cons_self
  obtain ⟨hread, -⟩ := readTime_eq_ok_iff ⟨saturday, Time.midnight⟩ " 4:00 PM".toList
    ⟨16, 0, 0, 0, by decide⟩
  obtain ⟨-, hapart⟩ := readTime_eq_ok_iff ⟨saturday, Time.midnight⟩ "4:00 PM".toList
    ⟨16, 0, 0, 0, by decide⟩
  refine ⟨hread.mpr (.inr ⟨?_, _, hmem, ?_⟩), (hapart _ hmem _ hway).resolve_left ?_⟩
  · decide +kernel
  · decide +kernel
  · decide +kernel

end Calendar

end FilterSelect
