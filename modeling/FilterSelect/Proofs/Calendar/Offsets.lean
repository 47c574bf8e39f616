/-
Timestamps of one instant are read as one moment.

A timestamp shows the time of a local clock and says how far that clock is ahead of
universal time.  What it is read as is the local time less the offset, counted on the scale
of all minutes (`DateTime.instant`), where days, months and years have no ends to carry
over.  Two timestamps that show the same instant on different clocks are therefore read as
the same moment, and so as the same date and the same time of day.

`TimestampText` says how timestamps are written, independently of how they are read.  That
no pattern for a moment or for a time alone takes a timestamp for something else is known
already: no text is a moment in two ways, and none is a moment and a time alone.
-/
import FilterSelect.Proofs.Calendar.DayNumber
import FilterSelect.Proofs.Calendar.Reading
import FilterSelect.Proofs.Calendar.TimeAlone

namespace FilterSelect

open Text (EndsDigits endsDigits_nil endsDigits_cons IsTight)

namespace Calendar

/-! ### How timestamps are written -/

/-- What is written behind the seconds for so many nanoseconds; the tenth digit and those behind
it count nothing. -/
inductive FractionText : Nat → List Char → Prop
  | none : FractionText 0 []
  | digits {nano : Nat} {ds : List Char} (h : IsDigits ds)
      (hnano : nano = Text.numeral ds * 10 ^ 9 / 10 ^ ds.length) : FractionText nano ('.' :: ds)

/-- What is written for a clock that is so many minutes ahead of universal time. -/
inductive OffsetText : Int → List Char → Prop
  | zulu {letter : Char} (h : letter = 'Z' ∨ letter = 'z') : OffsetText 0 [letter]
  | ahead {hours minutes : Nat} (hhours : hours ≤ 23) (hminutes : minutes ≤ 59) :
      OffsetText (60 * hours + minutes : Nat)
        ('+' :: (Text.padded 2 hours ++ ':' :: Text.padded 2 minutes))
  | behind {hours minutes : Nat} (hhours : hours ≤ 23) (hminutes : minutes ≤ 59) {sign : Char}
      (h : sign = '-' ∨ sign = '\u2212') :
      OffsetText (-(60 * hours + minutes : Nat))
        (sign :: (Text.padded 2 hours ++ ':' :: Text.padded 2 minutes))

/-- What is written for a time `t` of a year of four digits on a clock with this offset. -/
inductive TimestampText (t : DateTime) (offset : Int) : List Char → Prop
  | mk (hyear : 0 ≤ t.date.year ∧ t.date.year ≤ 9999) {separator : Char}
      (hseparator : separator = 'T' ∨ separator = 't' ∨ separator = ' ')
      {fraction : List Char} (hfraction : FractionText t.time.nano fraction)
      {zone : List Char} (hzone : OffsetText offset zone) :
      TimestampText t offset
        (t.date.text ++ separator :: (t.time.clockText ++ (fraction ++ zone)))

/-! ### The parts of a timestamp are read back

A timestamp is read from the left without any choice.  Behind the seconds the first character
says whether there is a fraction, and the one behind that says which way the offset is written.
-/

/-- A run of digits past the point says as many nanoseconds as its value does, rounded down. -/
theorem nanoOfFraction_eq {ds : List Char} (h : IsDigits ds) :
    nanoOfFraction ds = Text.numeral ds * 10 ^ 9 / 10 ^ ds.length := by
  show Text.numeral (ds.take 9) * 10 ^ (9 - (ds.take 9).length) = _
  rw [List.length_take]
  rcases Nat.le_total ds.length 9 with hshort | hlong
  · have hpow : 10 ^ 9 = 10 ^ (9 - ds.length) * 10 ^ ds.length := by
      rw [← Nat.pow_add, Nat.sub_add_cancel hshort]
    rw [List.take_of_length_le hshort, Nat.min_eq_right hshort, hpow, ← Nat.mul_assoc,
      Nat.mul_div_cancel _ (Nat.pow_pos (by decide))]
  · -- the digits past the ninth do not reach the last nanosecond
    have hsplit : Text.numeral ds = Text.continued (Text.numeral (ds.take 9)) (ds.drop 9) := by
      rw [← Text.continued_zero (ds.take 9), ← Text.continued_append, List.take_append_drop,
        Text.continued_zero]
    have hlow := Text.pow_mul_le_continued (Text.numeral (ds.take 9)) (ds.drop 9)
    have hdrop : ∀ c ∈ ds.drop 9, c.isDigit = true := fun c hc => h.all c (List.mem_of_mem_drop hc)
    have hhigh := Text.continued_lt hdrop (Text.numeral (ds.take 9))
    rw [← hsplit, List.length_drop] at hlow hhigh
    have hpow : 10 ^ ds.length = 10 ^ (ds.length - 9) * 10 ^ 9 := by
      rw [← Nat.pow_add, Nat.sub_add_cancel hlong]
    rw [Nat.min_eq_left hlong, Nat.sub_self, Nat.pow_zero, Nat.mul_one, hpow,
      Nat.mul_div_mul_right _ _ (by decide)]
    exact (Nat.div_eq_of_lt_le (by rwa [Nat.mul_comm]) (by rwa [Nat.mul_comm])).symm

private theorem OffsetText.front {offset : Int} {zone : List Char} (h : OffsetText offset zone) :
    ∃ c cs, zone = c :: cs ∧ c.isDigit = false ∧ c ≠ '.' := by
  cases h with
  | zulu h => rcases h with rfl | rfl <;> exact ⟨_, _, rfl, by decide, by decide⟩
  | ahead => exact ⟨'+', _, rfl, by decide, by decide⟩
  | behind _ _ h => rcases h with rfl | rfl <;> exact ⟨_, _, rfl, by decide, by decide⟩

private theorem OffsetText.isTight {offset : Int} {zone : List Char} (h : OffsetText offset zone) :
    IsTight zone := by
  have hclock (sign : Char) (hsign : Text.isBlank sign = false) (hours minutes : Nat) :
      IsTight (sign :: (Text.padded 2 hours ++ ':' :: Text.padded 2 minutes)) := by
    have hminutes := Text.isTight_of_isDigits (isDigits_padded 2 minutes)
    simpa using (Text.isTight_singleton hsign).enclose hminutes (Text.padded 2 hours ++ [':'])
  cases h with
  | zulu h => exact Text.isTight_singleton (by rcases h with rfl | rfl <;> decide)
  | ahead => exact hclock _ (by decide) _ _
  | behind _ _ h => exact hclock _ (by rcases h with rfl | rfl <;> decide) _ _

private theorem OffsetText.bounds {offset : Int} {zone : List Char} (h : OffsetText offset zone) :
    -1440 < offset ∧ offset < 1440 := by
  cases h <;> omega

private theorem readFraction_eq {nano : Nat} {fraction : List Char} (h : FractionText nano fraction)
    {c : Char} (hdigit : c.isDigit = false) (hpoint : c ≠ '.') (rest : List Char) :
    readFraction (fraction ++ c :: rest) = some (nano, c :: rest) := by
  cases h with
  | none =>
      rw [List.nil_append]
      unfold readFraction
      split
      · rename_i heq
        exact absurd (List.cons.inj heq).1 hpoint
      · rfl
  | digits hdigits hnano =>
      rw [List.cons_append, readFraction, readDigitRun_eq hdigits (endsDigits_cons hdigit rest),
        Option.map_some]
      dsimp only
      rw [nanoOfFraction_eq hdigits, hnano]

private theorem readOffset_clock {sign : Char} {hours minutes : Nat} (hhours : hours ≤ 23)
    (hminutes : minutes ≤ 59) (hsign : sign = '+' ∨ sign = '-' ∨ sign = '\u2212') :
    readOffset (sign :: (Text.padded 2 hours ++ ':' :: Text.padded 2 minutes)) =
      some (if sign = '+' then ((60 * hours + minutes : Nat) : Int)
        else -((60 * hours + minutes : Nat) : Int)) := by
  have hread := readExactly_padded (n := hours) (by decide : 0 < 2) (by omega)
    (':' :: Text.padded 2 minutes)
  have hread' := readExactly_padded (n := minutes) (by decide : 0 < 2) (by omega) []
  have hcolon (rest : List Char) : expect ':' (':' :: rest) = some rest := rfl
  rw [List.append_nil] at hread'
  rcases hsign with rfl | rfl | rfl <;>
    simp [readOffset, hread, hread', hcolon, hhours, hminutes]

private theorem readOffset_eq {offset : Int} {zone : List Char} (h : OffsetText offset zone) :
    readOffset zone = some offset := by
  cases h with
  | zulu h => rcases h with rfl | rfl <;> rfl
  | ahead hhours hminutes => rw [readOffset_clock hhours hminutes (.inl rfl), if_pos rfl]
  | behind hhours hminutes h =>
      rw [readOffset_clock hhours hminutes (.inr h), if_neg]
      rcases h with rfl | rfl <;> decide

private theorem readLocal_eq {t : DateTime} {offset : Int} {s : List Char}
    (h : TimestampText t offset s) :
    readLocal s = some (t, offset) := by
  cases h with
  | @mk hyear separator hseparator fraction hfraction zone hzone =>
      obtain ⟨hhour, hminute, hsecond, -⟩ := t.time.isTime
      obtain ⟨c, cs, rfl, hdigit, hpoint⟩ := hzone.front
      have hdash (rest : List Char) : expect '-' ('-' :: rest) = some rest := rfl
      have hcolon (rest : List Char) : expect ':' (':' :: rest) = some rest := rfl
      have hread {n : Nat} (hn : n < 100) (rest : List Char) :=
        readExactly_padded (n := n) (by decide : 0 < 2) hn rest
      have hread4 (rest : List Char) :=
        readExactly_padded (n := t.date.year.natAbs) (by decide : 0 < 4) (by omega) rest
      have hyearText : Date.yearText t.date.year = Text.padded 4 t.date.year.natAbs := if_pos hyear
      have hyearValue : (t.date.year.natAbs : Int) = t.date.year := by omega
      have htext : t.date.text ++ separator :: (t.time.clockText ++ (fraction ++ c :: cs)) =
          Text.padded 4 t.date.year.natAbs ++ '-' :: (Text.padded 2 t.date.month ++ '-' ::
            (Text.padded 2 t.date.day ++ separator :: (Text.padded 2 t.time.hour ++ ':' ::
              (Text.padded 2 t.time.minute ++ ':' :: (Text.padded 2 t.time.second ++
                (fraction ++ c :: cs)))))) := by
        simp only [t.date.text_eq, hyearText, Time.clockText, List.append_assoc, List.cons_append]
      rw [htext, readLocal, hread4]
      dsimp only [Option.bind_eq_bind, Option.bind_some]
      rw [hdash, Option.bind_some, hread t.date.month_lt]
      dsimp only [Option.bind_some]
      rw [hdash, Option.bind_some, hread t.date.day_lt]
      dsimp only [Option.bind_some]
      rw [if_pos hseparator, hread (by omega)]
      dsimp only [Option.bind_some]
      rw [hcolon, Option.bind_some, hread (by omega)]
      dsimp only [Option.bind_some]
      rw [hcolon, Option.bind_some, hread (by omega)]
      dsimp only [Option.bind_some]
      rw [readFraction_eq hfraction hdigit hpoint]
      dsimp only [Option.bind_some]
      rw [readOffset_eq hzone, hyearValue, t.date.ofParts?_parts, t.time.ofParts?_parts]
      rfl

/-! ### What a timestamp is read as -/

theorem TimestampText.isTight {t : DateTime} {offset : Int} {s : List Char}
    (h : TimestampText t offset s) : IsTight s := by
  cases h with
  | @mk hyear separator hseparator fraction hfraction zone hzone =>
      have htext := t.date.isTight_text.enclose hzone.isTight
        (separator :: (t.time.clockText ++ fraction))
      simpa using htext

theorem TimestampText.exists_toUniversal? {t : DateTime} {offset : Int} {s : List Char}
    (h : TimestampText t offset s) :
    ∃ u, t.toUniversal? offset = some u ∧ u.instant = t.instant.earlier offset := by
  cases h with
  | mk hyear _ _ hzone =>
      have hrange : firstYear < t.date.year ∧ t.date.year < lastYear := by
        simp only [firstYear, lastYear]
        omega
      exact DateTime.exists_toUniversal? hzone.bounds hrange

theorem TimestampText.trim_eq {t : DateTime} {offset : Int} {s : List Char}
    (h : TimestampText t offset s) : Text.trim s = s := by
  have htrim := @Text.trim_eq [] s [] nofun nofun h.isTight
  rwa [List.nil_append, List.append_nil] at htrim

/-- Timestamps are no keywords and no times alone, so both readers come to the same moment. -/
theorem TimestampText.readAs {t u : DateTime} {offset : Int} {s : List Char}
    (h : TimestampText t offset s) (hu : t.toUniversal? offset = some u) (reading : DateTime) :
    readDateTime reading s = .ok u ∧ readDate reading s = .ok u.date ∧
      readTime reading s = .ok u.time := by
  have hway : readTimestamp ∈ ways := List.mem_append_right _ List.mem_cons_self
  have htimestamp : readTimestamp s = some u := by
    rw [readTimestamp, readLocal_eq h, Option.bind_some]
    exact hu
  have hkeyword : Keyword.ofText? s = none := by
    cases h with
    | mk =>
        obtain ⟨c, cs, hcons, hc⟩ := exists_cons_date t.date
        rw [hcons]
        exact Keyword.ofText?_eq_none hc _
  have hmoment : readDateTime reading s = .ok u :=
    readDateTime_of_mem hway (by rwa [h.trim_eq]) (by rwa [h.trim_eq]) reading
  have hnotime : ∀ p ∈ timePatterns, Pattern.time? p (Text.trim s) = none := by
    intro p hp
    rw [h.trim_eq]
    refine (time?_eq_none_or hp hway s).resolve_right ?_
    rw [htimestamp]
    exact Option.some_ne_none u
  refine ⟨hmoment, ?_, ?_⟩
  · rw [readDate, hmoment]
    rfl
  · rw [readTime_of_no_time hnotime, hmoment]
    rfl

/--
**A timestamp is the local time less the offset, and timestamps of one instant are one moment.**

Every text that shows a time of a year of four digits on a clock with any offset below a day
is read, and what it is read as lies on the scale of minutes where the local time does, as
many minutes earlier as the clock is ahead.  The reader of dates finds the same date and the
reader of times the same time of day.  Every other text of the same instant is read as just
the same moment, date and time, whatever clock it shows.
-/
theorem readDateTime_timestampText {t : DateTime} {offset : Int} {s : List Char}
    (h : TimestampText t offset s) (reading : DateTime) :
    ∃ u, u.instant = t.instant.earlier offset ∧
      (readDateTime reading s = .ok u ∧ readDate reading s = .ok u.date ∧
        readTime reading s = .ok u.time) ∧
      ∀ t' offset' s', TimestampText t' offset' s' →
        t'.instant.earlier offset' = t.instant.earlier offset →
          readDateTime reading s' = .ok u ∧ readDate reading s' = .ok u.date ∧
            readTime reading s' = .ok u.time := by
  obtain ⟨u, hu, hinstant⟩ := h.exists_toUniversal?
  refine ⟨u, hinstant, h.readAs hu reading, ?_⟩
  intro t' offset' s' h' hsame
  obtain ⟨u', hu', hinstant'⟩ := h'.exists_toUniversal?
  obtain rfl : u' = u := DateTime.instant_injective (by rw [hinstant', hsame, hinstant])
  exact h'.readAs hu' reading

/-- Half past eleven on the night of a leap day. -/
def leapNight : DateTime :=
  ⟨⟨2016, 2, 29, by decide⟩, ⟨23, 30, 0, 500000000, by decide⟩⟩

/-- Six in the morning of the following day. -/
def leapMorning : DateTime :=
  ⟨⟨2016, 3, 1, by decide⟩, ⟨6, 0, 0, 500000000, by decide⟩⟩

theorem timestampText_leapNight :
    TimestampText leapNight (-60) "2016-02-29T23:30:00.5-01:00".toList := by
  have hfraction : FractionText leapNight.time.nano ['.', '5'] :=
    @FractionText.digits _ ['5'] ⟨nofun, List.all_eq_true.mp rfl⟩ (by decide)
  have hzone : OffsetText (-60) "-01:00".toList :=
    @OffsetText.behind 1 0 (by decide) (by decide) '-' (.inl rfl)
  exact .mk (by decide) (.inl rfl) hfraction hzone

theorem timestampText_leapMorning :
    TimestampText leapMorning 330 "2016-03-01t06:00:00.50+05:30".toList := by
  have hfraction : FractionText leapMorning.time.nano ['.', '5', '0'] :=
    @FractionText.digits _ ['5', '0'] ⟨nofun, List.all_eq_true.mp rfl⟩ (by decide)
  have hzone : OffsetText 330 "+05:30".toList :=
    @OffsetText.ahead 5 30 (by decide) (by decide)
  exact .mk (by decide) (.inr (.inl rfl)) hfraction hzone

/-- An hour behind it is night and five and a half hours ahead it is morning, at one instant. -/
theorem readDateTime_leapDay :
    readDateTime ⟨saturday, Time.midnight⟩ "2016-02-29T23:30:00.5-01:00".toList =
        .ok ⟨⟨2016, 3, 1, by decide⟩, ⟨0, 30, 0, 500000000, by decide⟩⟩ ∧
      readDate ⟨saturday, Time.midnight⟩ "2016-03-01t06:00:00.50+05:30".toList =
        .ok ⟨2016, 3, 1, by decide⟩ ∧
      readTime ⟨saturday, Time.midnight⟩ "2016-03-01t06:00:00.50+05:30".toList =
        .ok ⟨0, 30, 0, 500000000, by decide⟩ := by
  obtain ⟨u, hinstant, ⟨hread, -⟩, hother⟩ :=
    readDateTime_timestampText timestampText_leapNight ⟨saturday, Time.midnight⟩
  obtain ⟨-, hdate, htime⟩ := hother _ _ _ timestampText_leapMorning (by decide)
  obtain rfl : u = ⟨⟨2016, 3, 1, by decide⟩, ⟨0, 30, 0, 500000000, by decide⟩⟩ :=
    DateTime.instant_injective (by rw [hinstant]; decide)
  exact ⟨hread, hdate, htime⟩

end Calendar

end FilterSelect
