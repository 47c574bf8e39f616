/-
Days counted one by one, and moments counted in minutes.

A date names its day by year, month and day.  Counted from the start of year 1, the same day
has a number: 365 for every year before it and one more for every leap year, the days of
the months before it in its own year, and the day of the month.  The day after has the next
number and the day before the previous one, across the ends of months, leap years and years,
and no two days have one number.  So going on or back by a day is a matter of numbers, and
fails only where the date range has no day of the number (`next?_eq_some_iff`,
`previous?_eq_some_iff`).

A day and a time of day then come to a number of minutes, which an offset is added to or
taken from as any other number.  Seconds are kept apart from the minutes, since a minute
may have a leap second.  That the clock's own carrying agrees with this is
`exists_toUniversal?`.
-/
import FilterSelect.Calendar.Date
import Mathlib.Algebra.BigOperators.Intervals
import Mathlib.Algebra.Order.BigOperators.Group.Finset
import Mathlib.Algebra.Order.Group.Int
import Mathlib.Order.Interval.Finset.Nat

namespace FilterSelect

/-! ### Years and months

Every year begins where the one before it has ended, and so does every month of a year, so the
days before them only grow.
-/

/-- The days between the start of year 1 and the start of a year. -/
def daysBeforeYear (year : Int) : Int :=
  365 * (year - 1) + (year - 1) / 4 - (year - 1) / 100 + (year - 1) / 400

/-- The days of a year. -/
def daysInYear (year : Int) : Nat :=
  if isLeapYear year then 366 else 365

/-- The days of a year that lie before a month. -/
def daysBeforeMonth (year : Int) (month : Nat) : Nat :=
  ∑ m ∈ Finset.Ico 1 month, daysInMonth year m

theorem isLeapYear_iff (year : Int) :
    isLeapYear year = true ↔ year % 4 = 0 ∧ (year % 100 ≠ 0 ∨ year % 400 = 0) := by
  simp [isLeapYear]

private theorem daysBeforeYear_succ (year : Int) :
    daysBeforeYear (year + 1) = daysBeforeYear year + daysInYear year := by
  unfold daysBeforeYear daysInYear
  split
  · rename_i hleap
    rw [isLeapYear_iff] at hleap
    omega
  · rename_i hcommon
    rw [isLeapYear_iff] at hcommon
    omega

private theorem daysBeforeYear_mono {year later : Int} (h : year ≤ later) :
    daysBeforeYear year ≤ daysBeforeYear later := by
  refine monotone_int_of_le_succ (fun year => ?_) h
  rw [daysBeforeYear_succ]
  omega

private theorem daysBeforeMonth_succ (year : Int) {month : Nat} (h : 1 ≤ month) :
    daysBeforeMonth year (month + 1) = daysBeforeMonth year month + daysInMonth year month :=
  Finset.sum_Ico_succ_top h _

private theorem daysBeforeMonth_mono (year : Int) : Monotone (daysBeforeMonth year) :=
  fun _ _ h => Finset.sum_le_sum_of_subset (Finset.Ico_subset_Ico_right h)

/-- The twelve months make up the year. -/
theorem daysBeforeMonth_thirteen (year : Int) : daysBeforeMonth year 13 = daysInYear year := by
  simp only [daysBeforeMonth, Finset.sum_Ico_eq_sum_range, Finset.sum_range_succ,
    Finset.sum_range_zero, daysInMonth, daysInYear]
  split <;> rfl

/-! ### Days

A day of a month follows another one of the same month, or it is the first of a month, or of a
year.  Each of these cases is one of numbers, since the days before a month and before a year
are counted.
-/

namespace Date

/-- The number of a day; 1 January of year 1 has the number 1. -/
def dayNumber (d : Date) : Int :=
  daysBeforeYear d.year + daysBeforeMonth d.year d.month + d.day

theorem ofParts?_of_isDay {year : Int} {month day : Nat} (h : IsDay year month day) :
    ofParts? year month day = some ⟨year, month, day, h⟩ := dif_pos h

private theorem one_le_daysInMonth (year : Int) (month : Nat) : 1 ≤ daysInMonth year month := by
  unfold daysInMonth
  split
  · split <;> omega
  all_goals omega

private theorem fields_of_ofParts? {year : Int} {month day : Nat} {d : Date}
    (h : ofParts? year month day = some d) : d.year = year ∧ d.month = month ∧ d.day = day := by
  unfold ofParts? at h
  split at h
  · cases h
    exact ⟨rfl, rfl, rfl⟩
  · cases h

theorem dayNumber_of_next? {d e : Date} (h : d.next? = some e) :
    e.dayNumber = d.dayNumber + 1 := by
  obtain ⟨-, ⟨hfirst, hlast⟩, -, hday⟩ := d.isDay
  have hmonth := daysBeforeMonth_succ d.year hfirst
  unfold next? at h
  split at h
  · obtain ⟨hy, hm, hd⟩ := fields_of_ofParts? h
    simp only [dayNumber, hy, hm, hd]
    omega
  · rename_i hend
    split at h
    · obtain ⟨hy, hm, hd⟩ := fields_of_ofParts? h
      simp only [dayNumber, hy, hm, hd, hmonth]
      omega
    · obtain ⟨hy, hm, hd⟩ := fields_of_ofParts? h
      have htwelve : d.month = 12 := by omega
      have hjanuary : daysBeforeMonth (d.year + 1) 1 = 0 := rfl
      rw [htwelve] at hmonth hend hday
      rw [daysBeforeMonth_thirteen] at hmonth
      simp only [dayNumber, hy, hm, hd, daysBeforeYear_succ, hjanuary, htwelve]
      omega

theorem dayNumber_of_previous? {d e : Date} (h : d.previous? = some e) :
    e.dayNumber = d.dayNumber - 1 := by
  obtain ⟨-, ⟨hfirst, hlast⟩, hone, -⟩ := d.isDay
  unfold previous? at h
  split at h
  · obtain ⟨hy, hm, hd⟩ := fields_of_ofParts? h
    simp only [dayNumber, hy, hm, hd]
    omega
  · split at h
    · obtain ⟨hy, hm, hd⟩ := fields_of_ofParts? h
      have hmonth := daysBeforeMonth_succ d.year (show 1 ≤ d.month - 1 by omega)
      rw [Nat.sub_add_cancel hfirst] at hmonth
      simp only [dayNumber, hy, hm, hd, hmonth]
      omega
    · obtain ⟨hy, hm, hd⟩ := fields_of_ofParts? h
      have hmonth : d.month = 1 := by omega
      have hyears := daysBeforeYear_succ (d.year - 1)
      have htwelve := daysBeforeMonth_succ (d.year - 1) (show 1 ≤ 12 by decide)
      have hdecember : daysInMonth (d.year - 1) 12 = 31 := rfl
      have hjanuary : daysBeforeMonth d.year 1 = 0 := rfl
      rw [daysBeforeMonth_thirteen, hdecember] at htwelve
      rw [Int.sub_add_cancel] at hyears
      simp only [dayNumber, hy, hm, hd, hyears, hmonth, hjanuary]
      omega

theorem last_of_next?_eq_none {d : Date} (h : d.next? = none) :
    d.year = lastYear ∧ d.month = 12 ∧ d.day = 31 := by
  obtain ⟨hyear, ⟨hfirst, hlast⟩, hone, hday⟩ := d.isDay
  unfold next? at h
  split at h
  · rename_i hwithin
    rw [ofParts?_of_isDay ⟨hyear, ⟨hfirst, hlast⟩, by omega, hwithin⟩] at h
    cases h
  · rename_i hend
    split at h
    · rename_i hbefore
      rw [ofParts?_of_isDay ⟨hyear, ⟨by omega, hbefore⟩, le_refl 1, one_le_daysInMonth _ _⟩] at h
      cases h
    · have hmonth : d.month = 12 := by omega
      have hdecember : daysInMonth d.year 12 = 31 := rfl
      rw [hmonth, hdecember] at hend hday
      refine ⟨?_, hmonth, by omega⟩
      by_contra hne
      have hwithin : firstYear ≤ d.year + 1 ∧ d.year + 1 ≤ lastYear := by omega
      rw [ofParts?_of_isDay ⟨hwithin, by decide, le_refl 1, one_le_daysInMonth _ _⟩] at h
      cases h

theorem first_of_previous?_eq_none {d : Date} (h : d.previous? = none) :
    d.year = firstYear ∧ d.month = 1 ∧ d.day = 1 := by
  obtain ⟨hyear, ⟨hfirst, hlast⟩, hone, hday⟩ := d.isDay
  unfold previous? at h
  split at h
  · rw [ofParts?_of_isDay ⟨hyear, ⟨hfirst, hlast⟩, by omega, by omega⟩] at h
    cases h
  · split at h
    · rw [ofParts?_of_isDay ⟨hyear, ⟨by omega, by omega⟩, one_le_daysInMonth _ _, le_refl _⟩] at h
      cases h
    · refine ⟨?_, by omega, by omega⟩
      by_contra hne
      have hwithin : firstYear ≤ d.year - 1 ∧ d.year - 1 ≤ lastYear := by omega
      have hisDay : IsDay (d.year - 1) 12 31 := ⟨hwithin, by decide, by decide, le_refl _⟩
      rw [ofParts?_of_isDay hisDay] at h
      cases h

theorem exists_next? {d : Date} (h : d.year < lastYear) :
    ∃ e, d.next? = some e ∧ e.dayNumber = d.dayNumber + 1 := by
  cases hnext : d.next? with
  | none => exact absurd (last_of_next?_eq_none hnext).1 h.ne
  | some e => exact ⟨e, rfl, dayNumber_of_next? hnext⟩

theorem exists_previous? {d : Date} (h : firstYear < d.year) :
    ∃ e, d.previous? = some e ∧ e.dayNumber = d.dayNumber - 1 := by
  cases hprevious : d.previous? with
  | none => exact absurd (first_of_previous?_eq_none hprevious).1 h.ne'
  | some e => exact ⟨e, rfl, dayNumber_of_previous? hprevious⟩

theorem day_bounds (d : Date) : 1 ≤ d.day ∧ d.day ≤ daysInMonth d.year d.month :=
  d.isDay.2.2

theorem dayNumber_bounds (d : Date) :
    daysBeforeYear d.year < d.dayNumber ∧ d.dayNumber ≤ daysBeforeYear (d.year + 1) := by
  obtain ⟨-, ⟨hfirst, hlast⟩, hone, hday⟩ := d.isDay
  have hmonth := daysBeforeMonth_succ d.year hfirst
  have hyear := daysBeforeMonth_mono d.year (show d.month + 1 ≤ 13 by omega)
  rw [daysBeforeMonth_thirteen] at hyear
  rw [dayNumber, daysBeforeYear_succ]
  omega

private theorem dayNumber_lt_of_year_lt {d e : Date} (h : d.year < e.year) :
    d.dayNumber < e.dayNumber := by
  have hyears := daysBeforeYear_mono (show d.year + 1 ≤ e.year by omega)
  have hd := d.dayNumber_bounds
  have he := e.dayNumber_bounds
  omega

private theorem dayNumber_lt_of_month_lt {d e : Date} (hyear : d.year = e.year)
    (h : d.month < e.month) :
    d.dayNumber < e.dayNumber := by
  have hsucc := daysBeforeMonth_succ d.year d.isDay.2.1.1
  have hmonths := daysBeforeMonth_mono d.year (show d.month + 1 ≤ e.month from h)
  have hd := d.day_bounds
  have he := e.day_bounds
  simp only [dayNumber, ← hyear]
  omega

/-- No two days have one number. -/
theorem dayNumber_injective {d e : Date} (h : d.dayNumber = e.dayNumber) : d = e := by
  have hyear : d.year = e.year := by
    rcases Int.lt_trichotomy d.year e.year with hlt | heq | hlt
    · exact absurd h (dayNumber_lt_of_year_lt hlt).ne
    · exact heq
    · exact absurd h (dayNumber_lt_of_year_lt hlt).ne'
  have hmonth : d.month = e.month := by
    rcases Nat.lt_trichotomy d.month e.month with hlt | heq | hlt
    · exact absurd h (dayNumber_lt_of_month_lt hyear hlt).ne
    · exact heq
    · exact absurd h (dayNumber_lt_of_month_lt hyear.symm hlt).ne'
  have hday : d.day = e.day := by
    simp only [dayNumber, hyear, hmonth] at h
    omega
  cases d
  cases e
  simp only [mk.injEq]
  exact ⟨hyear, hmonth, hday⟩

/-- The following day is the one with the following number, if the date range has it. -/
theorem next?_eq_some_iff {d e : Date} : d.next? = some e ↔ e.dayNumber = d.dayNumber + 1 := by
  constructor
  · exact dayNumber_of_next?
  · intro h
    cases hnext : d.next? with
    | some f => rw [dayNumber_injective ((dayNumber_of_next? hnext).trans h.symm)]
    | none =>
        -- no day has a number past that of the last one
        obtain ⟨hyear, hmonth, hday⟩ := last_of_next?_eq_none hnext
        have hmonths := daysBeforeMonth_succ lastYear (show 1 ≤ 12 by decide)
        have hdecember : daysInMonth lastYear 12 = 31 := rfl
        rw [daysBeforeMonth_thirteen, hdecember] at hmonths
        have hlast : d.dayNumber = daysBeforeYear (lastYear + 1) := by
          simp only [dayNumber, hyear, hmonth, hday, daysBeforeYear_succ]
          omega
        have hyears := daysBeforeYear_mono (show e.year + 1 ≤ lastYear + 1 by
          have he := e.isDay.1.2
          omega)
        have he := e.dayNumber_bounds.2
        omega

/-- The day before is the one with the number before, if the date range has it. -/
theorem previous?_eq_some_iff {d e : Date} :
    d.previous? = some e ↔ e.dayNumber = d.dayNumber - 1 := by
  constructor
  · exact dayNumber_of_previous?
  · intro h
    cases hprevious : d.previous? with
    | some f => rw [dayNumber_injective ((dayNumber_of_previous? hprevious).trans h.symm)]
    | none =>
        obtain ⟨hyear, hmonth, hday⟩ := first_of_previous?_eq_none hprevious
        have hjanuary : daysBeforeMonth firstYear 1 = 0 := rfl
        have hfirst : d.dayNumber = daysBeforeYear firstYear + 1 := by
          simp only [dayNumber, hyear, hmonth, hday, hjanuary]
          omega
        have hyears := daysBeforeYear_mono e.isDay.1.1
        have he := e.dayNumber_bounds.1
        omega

/-- The first of January 1970 has 719162 days before it. -/
example : dayNumber ⟨1970, 1, 1, by decide⟩ = 719163 := by decide

end Date

/-! ### Instants

Universal time is reached from the time of a clock by taking away minutes, and the minutes of a
whole date range have no ends to carry over.
-/

/-- A point of time: a minute, counted from the start of year 1, and what has passed of it. -/
structure Instant where
  minute : Int
  second : Nat
  nano : Nat
deriving DecidableEq

/-- The instant so many minutes earlier. -/
def Instant.earlier (i : Instant) (minutes : Int) : Instant :=
  { i with minute := i.minute - minutes }

namespace DateTime

/-- The instant at which a clock of universal time shows `t`. -/
def instant (t : DateTime) : Instant where
  minute := 1440 * t.date.dayNumber + (60 * t.time.hour + t.time.minute : Nat)
  second := t.time.second
  nano := t.time.nano

theorem instant_injective {t u : DateTime} (h : t.instant = u.instant) : t = u := by
  simp only [instant, Instant.mk.injEq] at h
  obtain ⟨hminutes, hsecond, hnano⟩ := h
  obtain ⟨thour, tminute, -⟩ := t.time.isTime
  obtain ⟨uhour, uminute, -⟩ := u.time.isTime
  have hdate : t.date = u.date := Date.dayNumber_injective (by omega)
  rw [hdate] at hminutes
  have hhour : t.time.hour = u.time.hour := by omega
  have hminute : t.time.minute = u.time.minute := by omega
  obtain ⟨tdate, ttime⟩ := t
  obtain ⟨udate, utime⟩ := u
  cases ttime
  cases utime
  simp only [mk.injEq, Time.mk.injEq]
  exact ⟨hdate, hhour, hminute, hsecond, hnano⟩

/-- Minutes within a day and what has passed of them are a time of day. -/
theorem exists_ofMinutes (date : Date) (t : Time) {minutes : Int}
    (h : 0 ≤ minutes ∧ minutes < 1440) :
    ∃ time, Time.ofParts? (minutes.toNat / 60) (minutes.toNat % 60) t.second t.nano = some time ∧
      instant ⟨date, time⟩ = ⟨1440 * date.dayNumber + minutes, t.second, t.nano⟩ := by
  obtain ⟨-, -, hsecond, hnano⟩ := t.isTime
  have htime : IsTime (minutes.toNat / 60) (minutes.toNat % 60) t.second t.nano :=
    ⟨by omega, by omega, hsecond, hnano⟩
  refine ⟨_, dif_pos htime, ?_⟩
  simp only [instant, Instant.mk.injEq, and_true]
  omega

/--
Away from the ends of the date range, what a clock shows is as many minutes earlier in
universal time as the clock is ahead, whatever day, month or year it then falls in.
-/
theorem exists_toUniversal? {t : DateTime} {offset : Int} (hoffset : -1440 < offset ∧ offset < 1440)
    (hyear : firstYear < t.date.year ∧ t.date.year < lastYear) :
    ∃ u, t.toUniversal? offset = some u ∧ u.instant = t.instant.earlier offset := by
  obtain ⟨hhour, hminute, -⟩ := t.time.isTime
  unfold toUniversal?
  dsimp only
  split_ifs with hbefore hafter
  · have hwithin : 0 ≤ ((60 * t.time.hour + t.time.minute : Nat) : Int) - offset + 1440 ∧
        ((60 * t.time.hour + t.time.minute : Nat) : Int) - offset + 1440 < 1440 := by omega
    obtain ⟨d, hd, hnumber⟩ := Date.exists_previous? hyear.1
    obtain ⟨time, htime, hinstant⟩ := exists_ofMinutes d t.time hwithin
    refine ⟨⟨d, time⟩, by simp only [hd, Option.map_some, htime], ?_⟩
    rw [hinstant, hnumber]
    simp only [instant, Instant.earlier, Instant.mk.injEq, and_true]
    omega
  · have hwithin : 0 ≤ ((60 * t.time.hour + t.time.minute : Nat) : Int) - offset - 1440 ∧
        ((60 * t.time.hour + t.time.minute : Nat) : Int) - offset - 1440 < 1440 := by omega
    obtain ⟨d, hd, hnumber⟩ := Date.exists_next? hyear.2
    obtain ⟨time, htime, hinstant⟩ := exists_ofMinutes d t.time hwithin
    refine ⟨⟨d, time⟩, by simp only [hd, Option.map_some, htime], ?_⟩
    rw [hinstant, hnumber]
    simp only [instant, Instant.earlier, Instant.mk.injEq, and_true]
    omega
  · have hwithin : 0 ≤ ((60 * t.time.hour + t.time.minute : Nat) : Int) - offset ∧
        ((60 * t.time.hour + t.time.minute : Nat) : Int) - offset < 1440 := by omega
    obtain ⟨time, htime, hinstant⟩ := exists_ofMinutes t.date t.time hwithin
    refine ⟨⟨t.date, time⟩, by simp only [htime, Option.map_some], ?_⟩
    rw [hinstant]
    simp only [instant, Instant.earlier, Instant.mk.injEq, and_true]
    omega

end DateTime

end FilterSelect
