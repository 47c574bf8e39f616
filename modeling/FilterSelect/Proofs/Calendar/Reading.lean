/-
Dates and times that are written are read back.

A pattern reads a text from the left, one item after another, and every item of a written
date or time ends where the next one begins: a number of fixed width after its digits, a
year and a fraction because no digit follows.  So what a pattern reads from a written text
does not depend on what stands behind it, and the pattern of a longer text is read in the
pieces it is made of.

The order of the patterns matters where a text carries less than a pattern asks for.  A
date without a time could be cut short by a pattern that expects a clock first, or a day
before the year.  None of them gets that far: a year has four digits or a sign, which is
never a day or an hour, and behind the day there is nothing left to be a clock.
-/
import FilterSelect.Calendar.Reader
import FilterSelect.Proofs.Text.Digits

namespace FilterSelect

open Text (EndsDigits endsDigits_nil endsDigits_cons IsTight)

/-! ### Bounds -/

private theorem daysInMonth_le (year : Int) (month : Nat) : daysInMonth year month ≤ 31 := by
  unfold daysInMonth
  split
  · split <;> omega
  all_goals omega

theorem Date.month_lt (d : Date) : d.month < 10 ^ 2 := by
  obtain ⟨-, ⟨-, hmonth⟩, -⟩ := d.isDay
  omega

theorem Date.day_lt (d : Date) : d.day < 10 ^ 2 := by
  obtain ⟨-, -, -, hday⟩ := d.isDay
  have hlast := daysInMonth_le d.year d.month
  omega

theorem Date.text_eq (d : Date) : d.text =
    yearText d.year ++ '-' :: (Text.padded 2 d.month ++ '-' :: Text.padded 2 d.day) := by
  rw [Date.text, List.append_assoc, List.cons_append]

theorem Date.ofParts?_parts (d : Date) : Date.ofParts? d.year d.month d.day = some d := by
  rw [Date.ofParts?, dif_pos d.isDay]

theorem Time.ofParts?_parts (t : Time) :
    Time.ofParts? t.hour t.minute t.second t.nano = some t := by
  rw [Time.ofParts?, dif_pos t.isTime]

theorem Time.text_eq (t : Time) (places : Nat) :
    t.text places = t.clockText ++ '.' :: Text.padded places (t.nano / 10 ^ (9 - places)) := rfl

theorem Date.isTight_text (d : Date) : IsTight d.text := by
  have hyear : IsTight (yearText d.year) := by
    have hdigits := Text.isTight_of_isDigits (isDigits_padded 4 d.year.natAbs)
    unfold yearText
    split
    · exact hdigits
    · refine (Text.isTight_singleton ?_).enclose hdigits []
      split <;> decide
  have htext := hyear.enclose (Text.isTight_of_isDigits (isDigits_padded 2 d.day))
    ('-' :: Text.padded 2 d.month ++ ['-'])
  simpa [text_eq] using htext

theorem Time.isTight_text (t : Time) (places : Nat) : IsTight (t.text places) := by
  have hhour := Text.isTight_of_isDigits (isDigits_padded 2 t.hour)
  have hfraction := Text.isTight_of_isDigits
    (isDigits_padded places (t.nano / 10 ^ (9 - places)))
  have htext := hhour.enclose hfraction
    (':' :: Text.padded 2 t.minute ++ ':' :: Text.padded 2 t.second ++ ['.'])
  simpa [text_eq, clockText] using htext

theorem DateTime.isTight_text (t : DateTime) (separator : Char) (places : Nat) :
    IsTight (t.text separator places) := by
  simpa [text] using t.date.isTight_text.enclose (t.time.isTight_text places) [separator]

/-- The time without the digits of its fraction that `places` digits leave out. -/
def Time.cut (t : Time) (places : Nat) : Time where
  hour := t.hour
  minute := t.minute
  second := t.second
  nano := t.nano / 10 ^ (9 - places) * 10 ^ (9 - places)
  isTime := by
    obtain ⟨hhour, hminute, hsecond, hnano⟩ := t.isTime
    exact ⟨hhour, hminute, hsecond, Nat.lt_of_le_of_lt (Nat.div_mul_le_self ..) hnano⟩

@[simp] theorem Time.cut_nine (t : Time) : t.cut 9 = t := by
  simp [Time.cut]

namespace Calendar

/-! ### Numbers and years

What stands behind a number does not matter if the number has the width that is read at most,
or if no digit stands behind it.
-/

theorem readNumber_padded {width n : Nat} (hwidth : 0 < width) (h : n < 10 ^ width)
    (rest : List Char) : readNumber width (Text.padded width n ++ rest) = some (n, rest) := by
  have hdigits := isDigits_padded width n
  have htake := Text.takeDigits_eq hdigits.all rest
  rw [Text.length_padded hwidth h] at htake
  rw [readNumber, Text.trimLeft_of_isTight (Text.isTight_of_isDigits hdigits), htake]
  obtain ⟨d, ds, hpadded, -⟩ := hdigits.exists_cons
  simp only [hpadded]
  rw [← hpadded, Text.numeral_padded]

theorem readExactly_padded {width n : Nat} (hwidth : 0 < width) (h : n < 10 ^ width)
    (rest : List Char) : readExactly width (Text.padded width n ++ rest) = some (n, rest) := by
  have htake := Text.takeDigits_eq (isDigits_padded width n).all rest
  rw [Text.length_padded hwidth h] at htake
  simp only [readExactly, htake, Text.length_padded hwidth h, if_true, Text.numeral_padded]

theorem readDigitRun_eq {ds rest : List Char} (h : IsDigits ds) (hrest : EndsDigits rest) :
    readDigitRun (ds ++ rest) = some (ds, rest) := by
  rw [readDigitRun, Text.takeAllDigits_eq h.all hrest]
  obtain ⟨d, more, rfl, -⟩ := h.exists_cons
  rfl

/-- A year is read back, with its sign if it needs one. -/
theorem readYear_yearText (year : Int) {rest : List Char} (hrest : EndsDigits rest) :
    readYear (Date.yearText year ++ rest) = some (year, rest) := by
  have hdigits := isDigits_padded 4 year.natAbs
  unfold Date.yearText
  split
  · rename_i hplain
    have hnumber := readNumber_padded (n := year.natAbs) (by decide : 0 < 4) (by omega) rest
    obtain ⟨d, ds, hpadded, hd⟩ := hdigits.exists_cons
    rw [hpadded, List.cons_append] at hnumber
    have hblank := Text.isBlank_of_isDigit hd
    rw [readYear, hpadded, List.cons_append, Text.trimLeft_cons_of_not_blank hblank]
    split
    · rename_i heq
      cases heq
      exact absurd hd (by decide)
    · rename_i heq
      cases heq
      exact absurd hd (by decide)
    · rw [hnumber, Option.map_some]
      simp only [Option.some.injEq, Prod.mk.injEq, and_true]
      omega
  · split
    · rw [readYear, List.cons_append, Text.trimLeft_cons_of_not_blank (by decide)]
      simp only [readDigitRun_eq hdigits hrest, Option.map_some, Text.numeral_padded,
        Option.some.injEq, Prod.mk.injEq, and_true]
      omega
    · rw [readYear, List.cons_append, Text.trimLeft_cons_of_not_blank (by decide)]
      simp only [readDigitRun_eq hdigits hrest, Option.map_some, Text.numeral_padded,
        Option.some.injEq, Prod.mk.injEq, and_true]
      omega

private theorem nanoOfFraction_padded {places n : Nat} (hplaces : 0 < places ∧ places ≤ 9)
    (h : n < 10 ^ places) : nanoOfFraction (Text.padded places n) = n * 10 ^ (9 - places) := by
  have hlength := Text.length_padded hplaces.1 h
  have hkept : (Text.padded places n).take 9 = Text.padded places n :=
    List.take_of_length_le (by omega)
  show Text.numeral ((Text.padded places n).take 9) *
    10 ^ (9 - ((Text.padded places n).take 9).length) = _
  rw [hkept, hlength, Text.numeral_padded]

/-! ### Patterns in pieces -/

theorem readItems_append (p q : Pattern) (parts : Parts) (s : List Char) :
    readItems (p ++ q) parts s =
      (readItems p parts s).bind fun (parts, rest) => readItems q parts rest := by
  induction p generalizing parts s with
  | nil => rfl
  | cons item p ih =>
      rw [List.cons_append, readItems, readItems]
      cases item.read parts s with
      | none => rfl
      | some read => exact ih read.1 read.2

private theorem readItems_append_some {p : Pattern} {parts parts' : Parts} {s rest : List Char}
    (h : readItems p parts s = some (parts', rest)) (q : Pattern) :
    readItems (p ++ q) parts s = readItems q parts' rest := by
  rw [readItems_append, h, Option.bind_some]

private theorem readItems_append_none {p : Pattern} {parts : Parts} {s : List Char}
    (h : readItems p parts s = none) (q : Pattern) : readItems (p ++ q) parts s = none := by
  rw [readItems_append, h, Option.bind_none]

/-- The parts with the day of a date. -/
def Parts.withDate (parts : Parts) (d : Date) : Parts :=
  { parts with year := some d.year, month := some d.month, day := some d.day }

/-- The parts with a time of day. -/
def Parts.withTime (parts : Parts) (t : Time) : Parts :=
  { parts with
    hour := some t.hour, minute := some t.minute, second := some t.second, nano := some t.nano }

@[simp] theorem Parts.date?_withDate (parts : Parts) (d : Date) :
    (parts.withDate d).date? = some d :=
  d.ofParts?_parts

@[simp] theorem Parts.date?_withTime (parts : Parts) (t : Time) :
    (parts.withTime t).date? = parts.date? := rfl

@[simp] theorem Parts.time?_withTime (parts : Parts) (t : Time) :
    (parts.withTime t).time? = some t :=
  t.ofParts?_parts

/-- A date is read from the front of any text. -/
theorem readItems_hyphenDate (d : Date) (parts : Parts) (rest : List Char) :
    readItems hyphenDate parts (d.text ++ rest) = some (parts.withDate d, rest) := by
  have hyear := readYear_yearText d.year (endsDigits_cons (c := '-') (by decide)
    (Text.padded 2 d.month ++ '-' :: (Text.padded 2 d.day ++ rest)))
  have hmonth := readNumber_padded (by decide) d.month_lt
    ('-' :: (Text.padded 2 d.day ++ rest))
  have hday := readNumber_padded (by decide) d.day_lt rest
  simp only [Date.text_eq, hyphenDate, List.append_assoc, List.cons_append, readItems, Item.read,
    hyear, hmonth, hday, Option.map_some, if_true, Parts.withDate]

/-- A time is read from the front of a text that does not go on with a digit. -/
theorem readItems_fullClock (t : Time) {places : Nat} (hplaces : 0 < places ∧ places ≤ 9)
    (parts : Parts) {rest : List Char} (hrest : EndsDigits rest) :
    readItems fullClock parts (t.text places ++ rest) =
      some (parts.withTime (t.cut places), rest) := by
  obtain ⟨hhour, hminute, hsecond, hnano⟩ := t.isTime
  have hdigits := isDigits_padded places (t.nano / 10 ^ (9 - places))
  have hkept : t.nano / 10 ^ (9 - places) < 10 ^ places := by
    refine Nat.div_lt_of_lt_mul ?_
    rw [← Nat.pow_add, Nat.sub_add_cancel hplaces.2]
    exact hnano
  have hread (n : Nat) (h : n < 10 ^ 2) (more : List Char) :=
    readNumber_padded (by decide : 0 < 2) h more
  rw [Time.text_eq, Time.clockText]
  simp only [fullClock, List.append_assoc, List.cons_append, readItems, Item.read,
    hread t.hour (by omega), hread t.minute (by omega), hread t.second (by omega),
    readDigitRun_eq hdigits hrest, nanoOfFraction_padded hplaces hkept,
    Option.map_some, if_true, Parts.withTime, Time.cut]

/-! ### Texts that a pattern does not read

All characters of a date come before the letters in the order of code points, so a date has no
name of a month and no keyword in it.
-/

private theorem toNat_lt_of_isDigit {c : Char} (h : c.isDigit = true) : c.toNat < 'A'.toNat :=
  Nat.lt_of_le_of_lt (Char.isDigit_iff_toNat.mp h).2 (by decide)

private theorem toLower_of_lt {c : Char} (h : c.toNat < 'A'.toNat) : c.toLower = c := by
  have hnot : ¬ (c.val ≥ 'A'.val ∧ c.val ≤ 'Z'.val) := fun hle => Nat.not_lt.mpr hle.1 h
  exact dif_neg hnot

private theorem ne_of_lt {c l : Char} (h : c.toNat < 'A'.toNat) (hl : 'A'.toNat ≤ l.toNat) :
    c ≠ l := by
  rintro rfl
  omega

private theorem readMonthName_eq_none {c : Char} (h : c.toNat < 'A'.toNat) (s : List Char) :
    readMonthName (c :: s) = none := by
  simp [readMonthName, monthNames, dropWord, Text.lower, toLower_of_lt h, ne_of_lt h]

theorem Keyword.ofText?_eq_none {c : Char} (h : c.toNat < 'A'.toNat) (s : List Char) :
    Keyword.ofText? (c :: s) = none := by
  simp [Keyword.ofText?, Keyword.name, Text.lower, toLower_of_lt h, (ne_of_lt h _).symm]

/-- The first character of a date comes before the letters. -/
theorem exists_cons_date (d : Date) : ∃ c cs, d.text = c :: cs ∧ c.toNat < 'A'.toNat := by
  unfold Date.text Date.yearText
  split
  · obtain ⟨c, cs, hpadded, hc⟩ := (isDigits_padded 4 d.year.natAbs).exists_cons
    rw [hpadded]
    exact ⟨c, _, rfl, toNat_lt_of_isDigit hc⟩
  · split
    · exact ⟨'-', _, rfl, by decide⟩
    · exact ⟨'+', _, rfl, by decide⟩

/-- Two digits of a year are not all of it, and a sign is none of them. -/
theorem readNumber_yearText (year : Int) (rest : List Char) :
    readNumber 2 (Date.yearText year ++ rest) = none ∨
      ∃ n c more, readNumber 2 (Date.yearText year ++ rest) = some (n, c :: more) ∧
        c.isDigit = true := by
  have hdigits := isDigits_padded 4 year.natAbs
  have hlength := le_length_padded 4 year.natAbs
  unfold Date.yearText
  split
  · right
    have hfront := hdigits.take (n := 2) (by decide)
    obtain ⟨c, more, hdrop, hc⟩ := (hdigits.drop (n := 2) (by omega)).exists_cons
    have htake := Text.takeDigits_eq hfront.all (c :: more ++ rest)
    rw [List.length_take, Nat.min_eq_left (by omega)] at htake
    rw [← List.take_append_drop 2 (Text.padded 4 year.natAbs), hdrop, List.append_assoc,
      readNumber, Text.trimLeft_of_isTight (Text.isTight_of_isDigits hfront), htake]
    obtain ⟨d, ds, hcons, -⟩ := hfront.exists_cons
    rw [hcons]
    exact ⟨_, c, more ++ rest, rfl, hc⟩
  · left
    split
    · rw [readNumber, List.cons_append, Text.trimLeft_cons_of_not_blank (by decide)]
      rfl
    · rw [readNumber, List.cons_append, Text.trimLeft_cons_of_not_blank (by decide)]
      rfl

/-- A pattern that begins with an hour or a day and a mark behind it does not read a date. -/
theorem readItems_number_none {item : Item} {mark : Char} (hitem : item = .day ∨ item = .hour)
    (hmark : mark.isDigit = false) (d : Date) (parts : Parts) (p : Pattern) :
    readItems (item :: .char mark :: p) parts d.text = none := by
  have hread := readNumber_yearText d.year
    ('-' :: (Text.padded 2 d.month ++ '-' :: Text.padded 2 d.day))
  rw [← d.text_eq] at hread
  rcases hread with hnone | ⟨n, c, more, hsome, hc⟩
  · rcases hitem with rfl | rfl <;> simp [readItems, Item.read, hnone]
  · have hne : c ≠ mark := by
      rintro rfl
      rw [hc] at hmark
      exact absurd hmark (by decide)
    rcases hitem with rfl | rfl <;> simp [readItems, Item.read, hsome, hne]

private theorem readItems_slashDate_none (d : Date) (parts : Parts) :
    readItems slashDate parts d.text = none := by
  have hyear := readYear_yearText d.year (endsDigits_cons (c := '-') (by decide)
    (Text.padded 2 d.month ++ '-' :: Text.padded 2 d.day))
  rw [← d.text_eq] at hyear
  simp [slashDate, readItems, Item.read, hyear]

private theorem readItems_namedDate_none (d : Date) (parts : Parts) :
    readItems namedDate parts d.text = none := by
  obtain ⟨c, cs, hcons, hc⟩ := exists_cons_date d
  simp [namedDate, readItems, Item.read, hcons, readMonthName_eq_none hc]

private theorem readItems_hyphenDate_none {q : Pattern} (hq : ∀ parts, readItems q parts [] = none)
    (d : Date) (parts : Parts) : readItems (hyphenDate ++ q) parts d.text = none := by
  have hdate := readItems_hyphenDate d parts []
  rw [List.append_nil] at hdate
  rw [readItems_append_some hdate, hq]

/-- No pattern for a day with a time reads a date alone. -/
theorem dateTime?_date {p : Pattern} (hp : p ∈ dateTimePatterns) (d : Date) :
    p.dateTime? d.text = none := by
  have hitems : readItems p {} d.text = none := by
    simp only [dateTimePatterns, List.mem_cons, List.not_mem_nil, or_false] at hp
    rcases hp with rfl | rfl | rfl | rfl | rfl | rfl | rfl | rfl | rfl | rfl | rfl | rfl
    · exact readItems_hyphenDate_none (fun _ => rfl) d _
    · exact readItems_hyphenDate_none (fun _ => rfl) d _
    · exact readItems_hyphenDate_none (fun _ => rfl) d _
    · exact readItems_hyphenDate_none (fun _ => rfl) d _
    · exact readItems_append_none (readItems_slashDate_none d _) _
    · exact readItems_append_none (readItems_slashDate_none d _) _
    · exact readItems_number_none (.inl rfl) (by decide) d _ _
    · exact readItems_number_none (.inl rfl) (by decide) d _ _
    · exact readItems_number_none (.inr rfl) (by decide) d _ _
    · exact readItems_number_none (.inr rfl) (by decide) d _ _
    · exact readItems_append_none (readItems_namedDate_none d _) _
    · exact readItems_append_none (readItems_namedDate_none d _) _
  rw [Pattern.dateTime?, Pattern.parts?, hitems]
  rfl

/-- A timestamp's year has no sign, and a clock stands behind its day. -/
theorem readTimestamp_date (d : Date) : readTimestamp d.text = none := by
  have hlocal : readLocal d.text = none := by
    rw [readLocal, d.text_eq]
    unfold Date.yearText
    split
    · have hyear := readExactly_padded (n := d.year.natAbs) (by decide : 0 < 4) (by omega)
        ('-' :: (Text.padded 2 d.month ++ '-' :: Text.padded 2 d.day))
      have hmonth := readExactly_padded (by decide) d.month_lt ('-' :: Text.padded 2 d.day)
      have hday := readExactly_padded (by decide) d.day_lt []
      have hhyphen (rest : List Char) : expect '-' ('-' :: rest) = some rest := rfl
      rw [List.append_nil] at hday
      rw [hyear]
      dsimp only [Option.bind_eq_bind, Option.bind_some]
      rw [hhyphen, Option.bind_some, hmonth]
      dsimp only [Option.bind_some]
      rw [hhyphen, Option.bind_some, hday]
      rfl
    · split <;> rfl
  rw [readTimestamp, hlocal, Option.bind_none]

/-! ### What the readers make of what is written -/

theorem readAbsolute?_date (d : Date) : readAbsolute? d.text = some (Keyword.startOf d) := by
  have hpatterns : (dateTimePatterns.findSome? fun p => p.dateTime? d.text) = none :=
    List.findSome?_eq_none_iff.mpr fun p hp => dateTime?_date hp d
  have hdate : Pattern.date? hyphenDate d.text = some d := by
    have hread := readItems_hyphenDate d {} []
    rw [List.append_nil] at hread
    rw [Pattern.date?, Pattern.parts?, hread, Option.bind_some, Parts.date?_withDate]
  rw [readAbsolute?, hpatterns, readTimestamp_date, datePatterns, List.findSome?_cons, hdate]
  rfl

theorem dateTime?_text (t : DateTime) {places : Nat} (hplaces : 0 < places ∧ places ≤ 9)
    {separator : Char} {item : Item}
    (hitem : ∀ parts, item.read parts (separator :: t.time.text places) =
      some (parts, t.time.text places)) :
    Pattern.dateTime? (hyphenDate ++ item :: fullClock) (t.text separator places) =
      some ⟨t.date, t.time.cut places⟩ := by
  have hclock := readItems_fullClock t.time hplaces (Parts.withDate {} t.date) endsDigits_nil
  rw [List.append_nil] at hclock
  rw [Pattern.dateTime?, Pattern.parts?, DateTime.text,
    readItems_append_some (readItems_hyphenDate t.date {} _)]
  simp only [readItems, hitem, hclock, Option.bind_some, Parts.time?_withTime,
    Parts.date?_withTime, Parts.date?_withDate]

theorem readAbsolute?_dateTime (t : DateTime) {places : Nat} (hplaces : 0 < places ∧ places ≤ 9)
    {separator : Char} (hseparator : separator = 'T' ∨ separator = ' ') :
    readAbsolute? (t.text separator places) = some ⟨t.date, t.time.cut places⟩ := by
  rw [readAbsolute?, dateTimePatterns, List.findSome?_cons]
  rcases hseparator with rfl | rfl
  · rw [dateTime?_text t hplaces fun parts => rfl]
    rfl
  · have hfirst : Pattern.dateTime? (hyphenDate ++ .char 'T' :: fullClock)
        (t.text ' ' places) = none := by
      rw [Pattern.dateTime?, Pattern.parts?, DateTime.text,
        readItems_append_some (readItems_hyphenDate t.date {} _)]
      rfl
    have hblank (parts : Parts) : Item.read .blank parts (' ' :: t.time.text places) =
        some (parts, t.time.text places) := by
      have htight := Text.trimLeft_of_isTight (t.time.isTight_text places) []
      rw [List.append_nil] at htight
      rw [Item.read, Text.trimLeft_cons_of_blank (by decide), htight]
    rw [hfirst, List.findSome?_cons, dateTime?_text t hplaces hblank]
    rfl

theorem readMoment_of_readAbsolute? {s : List Char} {moment : DateTime}
    (hs : ∃ c cs, s = c :: cs ∧ c.toNat < 'A'.toNat) (h : readAbsolute? s = some moment)
    (reading : DateTime) : readMoment reading s = .ok moment := by
  obtain ⟨c, cs, rfl, hc⟩ := hs
  rw [readMoment, Keyword.ofText?_eq_none hc, h]

/-- A date alone is its midnight, at whatever reading of the clock. -/
theorem readMoment_date (d : Date) (reading : DateTime) :
    readMoment reading d.text = .ok (Keyword.startOf d) :=
  readMoment_of_readAbsolute? (exists_cons_date d) (readAbsolute?_date d) reading

theorem readMoment_dateTime (t : DateTime) {places : Nat} (hplaces : 0 < places ∧ places ≤ 9)
    {separator : Char} (hseparator : separator = 'T' ∨ separator = ' ') (reading : DateTime) :
    readMoment reading (t.text separator places) = .ok ⟨t.date, t.time.cut places⟩ := by
  refine readMoment_of_readAbsolute? ?_ (readAbsolute?_dateTime t hplaces hseparator) reading
  obtain ⟨c, cs, hcons, hc⟩ := exists_cons_date t.date
  exact ⟨c, _, by rw [DateTime.text, hcons, List.cons_append], hc⟩

theorem time?_text (t : Time) {places : Nat} (hplaces : 0 < places ∧ places ≤ 9) :
    Pattern.time? fullClock (t.text places) = some (t.cut places) := by
  have hread := readItems_fullClock t hplaces {} endsDigits_nil
  rw [List.append_nil] at hread
  rw [Pattern.time?, Pattern.parts?, hread, Option.bind_some, Parts.time?_withTime]

end Calendar

/-! ### Texts of different values -/

theorem Date.text_injective {d e : Date} (h : d.text = e.text) : d = e := by
  have hread := Calendar.readAbsolute?_date d
  rw [h, Calendar.readAbsolute?_date e] at hread
  exact (congrArg DateTime.date (Option.some.inj hread)).symm

theorem Time.text_cut (t : Time) (places : Nat) : (t.cut places).text places = t.text places := by
  have hkept : t.nano / 10 ^ (9 - places) * 10 ^ (9 - places) / 10 ^ (9 - places) =
      t.nano / 10 ^ (9 - places) := Nat.mul_div_cancel _ (Nat.pow_pos (by decide))
  rw [text_eq, text_eq]
  simp only [cut, clockText, hkept]

/-- Times have the same text if they differ only in what the text leaves out. -/
theorem Time.text_eq_iff {t u : Time} {places : Nat} (hplaces : 0 < places ∧ places ≤ 9) :
    t.text places = u.text places ↔ t.cut places = u.cut places := by
  constructor
  · intro h
    have hread := Calendar.time?_text t hplaces
    rw [h, Calendar.time?_text u hplaces] at hread
    exact (Option.some.inj hread).symm
  · intro h
    rw [← t.text_cut, h, u.text_cut]

theorem DateTime.text_eq_iff {t u : DateTime} {places : Nat} (hplaces : 0 < places ∧ places ≤ 9)
    {separator : Char} (hseparator : separator = 'T' ∨ separator = ' ') :
    t.text separator places = u.text separator places ↔
      t.date = u.date ∧ t.time.cut places = u.time.cut places := by
  constructor
  · intro h
    have hread := Calendar.readAbsolute?_dateTime t hplaces hseparator
    rw [h, Calendar.readAbsolute?_dateTime u hplaces hseparator, Option.some.injEq,
      DateTime.mk.injEq] at hread
    exact ⟨hread.1.symm, hread.2.symm⟩
  · rintro ⟨hdate, htime⟩
    rw [DateTime.text, DateTime.text, hdate, (Time.text_eq_iff hplaces).mpr htime]

end FilterSelect
