import Mathlib.Algebra.GroupWithZero.Nat
import AlarmPanel.Calendar

/-!
# Days and seconds counted

The days of the calendar are counted from the first day of the year one on, and the seconds from the midnight
before it. The number of a day is a sum of the days before its year and before its month, so that it grows by one
from each day to the next, over the ends of months and years, is to be proved (`Date.number_next`), and so is that
one hour is 3600 seconds for every time (`Timestamp.instant_nextHour`). A date or a time is known by its number
(`Date.number_inj`, `Timestamp.instant_inj`): to find the seconds up to a time is to find the time.
-/

namespace AlarmPanel

/-! ## Years and months -/

/-- The number of days before a year, with a day more for each leap year before it. -/
def daysBeforeYear (year : Int) : Int :=
  365 * (year - 1) + (year - 1) / 4 - (year - 1) / 100 + (year - 1) / 400

/-- The number of days of a year before a month. -/
def daysBeforeMonth (year : Int) (month : Nat) : Nat := ((List.range month).map (daysInMonth year)).sum

/-- The number of a day, the first day of the year one being the first. -/
def dayNumber (year : Int) (month day : Nat) : Int :=
  daysBeforeYear year + daysBeforeMonth year month + day

/-- The number of seconds from the midnight before the first day. -/
def secondNumber (year : Int) (month day hour minute second : Nat) : Int :=
  86400 * dayNumber year month day + (hour * 3600 + minute * 60 + second : Nat)

variable {year : Int} {month : Nat}

theorem daysBeforeMonth_succ (year : Int) (month : Nat) :
    daysBeforeMonth year (month + 1) = daysBeforeMonth year month + daysInMonth year month := by
  rw [daysBeforeMonth, List.range_succ, List.map_append, List.sum_append, List.map_singleton, List.sum_singleton]
  rfl

theorem daysBeforeMonth_le {m n : Nat} (h : m ≤ n) : daysBeforeMonth year m ≤ daysBeforeMonth year n := by
  induction h with
  | refl => exact Nat.le_refl _
  | step _ ih =>
    rw [daysBeforeMonth_succ]
    omega

/-- The whole year stands before a thirteenth month. -/
theorem daysBeforeMonth_thirteen (year : Int) :
    daysBeforeMonth year 13 = if isLeapYear year then 366 else 365 := by
  simp only [daysBeforeMonth_succ, daysInMonth]
  cases isLeapYear year <;> rfl

theorem isLeapYear_iff : isLeapYear year = true ↔ year % 4 = 0 ∧ (year % 100 ≠ 0 ∨ year % 400 = 0) := by
  simp [isLeapYear]

theorem daysBeforeYear_succ (year : Int) :
    daysBeforeYear (year + 1) = daysBeforeYear year + daysBeforeMonth year 13 := by
  rw [daysBeforeMonth_thirteen]
  unfold daysBeforeYear
  split
  · next h =>
    have hleap := isLeapYear_iff.mp h
    omega
  · next h =>
    have hleap := mt isLeapYear_iff.mpr h
    omega

theorem daysBeforeYear_lt {y z : Int} (h : y < z) : daysBeforeYear y + daysBeforeMonth y 13 ≤ daysBeforeYear z := by
  rw [← daysBeforeYear_succ]
  unfold daysBeforeYear
  omega

/-! ## Dates -/

namespace Date

variable {d e : Date}

/-- The number of the day. -/
def number (d : Date) : Int := dayNumber d.year d.month d.day

/-- A date lies before the end of its month, and with it before the end of its year. -/
theorem number_le (d : Date) :
    d.number ≤ daysBeforeYear d.year + daysBeforeMonth d.year (d.month + 1) ∧
      daysBeforeMonth d.year (d.month + 1) ≤ daysBeforeMonth d.year 13 := by
  have hday := d.exists_day
  have hmonth := d.month_of_exists
  refine ⟨?_, daysBeforeMonth_le (by omega)⟩
  rw [number, dayNumber, daysBeforeMonth_succ]
  omega

theorem lt_number (d : Date) : daysBeforeYear d.year + daysBeforeMonth d.year d.month < d.number := by
  have hday := d.exists_day
  rw [number, dayNumber]
  omega

theorem number_lt_of_year_lt (h : d.year < e.year) : d.number < e.number := by
  have hd := d.number_le
  have he := e.lt_number
  have hyears := daysBeforeYear_lt h
  omega

theorem number_lt_of_month_lt (hyear : d.year = e.year) (h : d.month < e.month) : d.number < e.number := by
  have hd := d.number_le.1
  have he := e.lt_number
  have hmonths : daysBeforeMonth e.year (d.month + 1) ≤ daysBeforeMonth e.year e.month := daysBeforeMonth_le h
  rw [hyear] at hd
  omega

/-- No two days have one number. -/
theorem number_inj : d.number = e.number ↔ d = e := by
  refine ⟨fun h => ?_, fun h => h ▸ rfl⟩
  have hyear : d.year = e.year := by
    rcases Int.lt_trichotomy d.year e.year with hlt | heq | hgt
    · have := number_lt_of_year_lt hlt
      omega
    · exact heq
    · have := number_lt_of_year_lt hgt
      omega
  have hmonth : d.month = e.month := by
    rcases Nat.lt_trichotomy d.month e.month with hlt | heq | hgt
    · have := number_lt_of_month_lt hyear hlt
      omega
    · exact heq
    · have := number_lt_of_month_lt hyear.symm hgt
      omega
  obtain ⟨y, m, a, ha⟩ := d
  obtain ⟨z, n, b, hb⟩ := e
  obtain rfl : y = z := hyear
  obtain rfl : m = n := hmonth
  have hday : a = b := by
    simp only [number, dayNumber] at h
    omega
  subst hday
  rfl

/-- The next day has the next number, at the end of a month and of a year as well. -/
theorem number_next (d : Date) : d.next.number = d.number + 1 := by
  have hday := d.exists_day
  have hmonth := d.month_of_exists
  unfold next
  split
  · simp only [number, dayNumber]
    omega
  · next hlast =>
    have hend : d.number = daysBeforeYear d.year + daysBeforeMonth d.year (d.month + 1) := by
      rw [number, dayNumber, daysBeforeMonth_succ]
      omega
    split
    · rw [hend]
      rfl
    · have hdecember : d.month + 1 = 13 := by omega
      have hfirst : daysBeforeMonth (d.year + 1) 1 = 0 := rfl
      rw [hend, hdecember, ← daysBeforeYear_succ]
      simp only [number, dayNumber, hfirst]
      omega

/-- Only New Year's Day follows a day of another year. -/
theorem next_of_year_ne (h : d.next.year ≠ d.year) :
    d.next.year = d.year + 1 ∧ d.next.month = 1 ∧ d.next.day = 1 := by
  unfold next at h ⊢
  split at h
  · exact absurd rfl h
  · next hlast =>
    rw [dif_neg hlast]
    split at h
    · exact absurd rfl h
    · next hdecember =>
      rw [dif_neg hdecember]
      exact ⟨rfl, rfl, rfl⟩

end Date

/-! ## Times -/

namespace Timestamp

variable {s t : Timestamp}

/-- The seconds up to the time. -/
def instant (t : Timestamp) : Int :=
  secondNumber t.date.year t.date.month t.date.day t.hour t.minute t.second

theorem instant_eq (t : Timestamp) :
    t.instant = 86400 * t.date.number + (t.hour * 3600 + t.minute * 60 + t.second : Nat) := rfl

/-- No two times have one number of seconds. -/
theorem instant_inj : s.instant = t.instant ↔ s = t := by
  refine ⟨fun h => ?_, fun h => h ▸ rfl⟩
  obtain ⟨d, hour, minute, second, hs⟩ := s
  obtain ⟨e, hour', minute', second', ht⟩ := t
  simp only [instant_eq] at h
  obtain rfl : d = e := Date.number_inj.mp (by omega)
  obtain rfl : hour = hour' := by omega
  obtain rfl : minute = minute' := by omega
  obtain rfl : second = second' := by omega
  rfl

/-- One hour is 3600 seconds, also over midnight. -/
theorem instant_nextHour (t : Timestamp) : t.nextHour.instant = t.instant + 3600 := by
  have htime := t.exists_time
  unfold nextHour
  split
  · simp only [instant_eq]
    omega
  · simp only [instant_eq, Date.number_next]
    omega

end Timestamp

end AlarmPanel
