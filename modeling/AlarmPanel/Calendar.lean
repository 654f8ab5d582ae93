/-!
# Calendar

Dates of the proleptic Gregorian calendar with a time of day in whole seconds. A `Timestamp` is always a
time that exists, so the only step taken on it, to the next hour, has to find the next day, month and
year (`Timestamp.nextHour`).
-/

namespace AlarmPanel

/-- Every fourth year is a leap year, save those full centuries that four hundred does not divide. -/
def isLeapYear (year : Int) : Bool := year % 4 == 0 && (year % 100 != 0 || year % 400 == 0)

/-- The number of days of a month counted from one; no days if there is no such month. -/
def daysInMonth (year : Int) (month : Nat) : Nat :=
  match month with
  | 1 | 3 | 5 | 7 | 8 | 10 | 12 => 31
  | 4 | 6 | 9 | 11 => 30
  | 2 => if isLeapYear year then 29 else 28
  | _ => 0

/-- A day of the calendar. -/
structure Date where
  year : Int
  month : Nat
  day : Nat
  exists_day : 1 ≤ day ∧ day ≤ daysInMonth year month
  deriving DecidableEq

/-- A day and a time of day. -/
structure Timestamp where
  date : Date
  hour : Nat
  minute : Nat
  second : Nat
  exists_time : hour < 24 ∧ minute < 60 ∧ second < 60
  deriving DecidableEq

namespace Date

/-- The day with these numbers, if there is one. -/
def ofNumbers? (year : Int) (month day : Nat) : Option Date :=
  if h : 1 ≤ day ∧ day ≤ daysInMonth year month then some ⟨year, month, day, h⟩ else none

theorem one_le_daysInMonth (year : Int) {month : Nat} (h : 1 ≤ month ∧ month ≤ 12) :
    1 ≤ daysInMonth year month := by
  have hm : month = 1 ∨ month = 2 ∨ month = 3 ∨ month = 4 ∨ month = 5 ∨ month = 6 ∨ month = 7 ∨
      month = 8 ∨ month = 9 ∨ month = 10 ∨ month = 11 ∨ month = 12 := by omega
  rcases hm with rfl | rfl | rfl | rfl | rfl | rfl | rfl | rfl | rfl | rfl | rfl | rfl
  case inr.inl => simp only [daysInMonth]; split <;> omega
  all_goals simp [daysInMonth]

/-- Only the months one to twelve have days. -/
theorem month_of_exists (d : Date) : 1 ≤ d.month ∧ d.month ≤ 12 := by
  obtain ⟨year, month, day, h⟩ := d
  simp only
  unfold daysInMonth at h
  split at h <;> omega

/-- The day after: in the same month, else the first of the next month, else New Year's Day. -/
def next (d : Date) : Date :=
  if h : d.day + 1 ≤ daysInMonth d.year d.month then
    ⟨d.year, d.month, d.day + 1, by omega⟩
  else if hm : d.month < 12 then
    ⟨d.year, d.month + 1, 1, by
      have := one_le_daysInMonth d.year (show 1 ≤ d.month + 1 ∧ d.month + 1 ≤ 12 by omega)
      omega⟩
  else ⟨d.year + 1, 1, 1, by simp [daysInMonth]⟩

end Date

namespace Timestamp

/-- The time with these numbers, if there is one. -/
def ofNumbers? (year : Int) (month day hour minute second : Nat) : Option Timestamp := do
  let date ← Date.ofNumbers? year month day
  if h : hour < 24 ∧ minute < 60 ∧ second < 60 then some ⟨date, hour, minute, second, h⟩ else none

/-- The same minute and second one hour later. -/
def nextHour (t : Timestamp) : Timestamp :=
  if h : t.hour + 1 < 24 then
    ⟨t.date, t.hour + 1, t.minute, t.second, h, t.exists_time.2⟩
  else ⟨t.date.next, 0, t.minute, t.second, by omega, t.exists_time.2⟩

end Timestamp

end AlarmPanel
