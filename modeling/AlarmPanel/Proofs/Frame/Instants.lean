import AlarmPanel.Proofs.Calendar
import AlarmPanel.Proofs.Frame.TimeNumbers

/-!
# The instant that a field stands for

The six numbers of a field stand for so many seconds after the midnight of their date, and a minute 60 needs no
rule of its own in that sum. `readTimestamp_eq_ok_iff_instant` is that a field is read exactly as the time of
these seconds, whatever hour, day, month or year the minute 60 leads into.
-/

namespace AlarmPanel

namespace TimeNumbers

variable {n : TimeNumbers} {t : Timestamp}

/-- The numbers are a day of the calendar in the century of 2000, an hour, a minute or 60, and a second. -/
structure Exists (n : TimeNumbers) : Prop where
  month : 1 ≤ n.month.toNat ∧ n.month.toNat ≤ 12
  day : 1 ≤ n.day.toNat ∧ n.day.toNat ≤ daysInMonth (2000 + n.year.toNat) n.month.toNat
  hour : n.hour.toNat ≤ 23
  minute : n.minute.toNat ≤ 60
  second : n.second.toNat ≤ 59

/-- The number of the day. -/
def dayNumber (n : TimeNumbers) : Int :=
  AlarmPanel.dayNumber (2000 + n.year.toNat) n.month.toNat n.day.toNat

/-- The seconds up to the time, counted through a minute 60 like through any other. -/
def instant (n : TimeNumbers) : Int :=
  86400 * n.dayNumber + (n.hour.toNat * 3600 + n.minute.toNat * 60 + n.second.toNat : Nat)

/-- The six numbers of the time are these. -/
structure Verbatim (n : TimeNumbers) (t : Timestamp) : Prop where
  year : t.date.year = 2000 + n.year.toNat
  month : t.date.month = n.month.toNat
  day : t.date.day = n.day.toNat
  hour : t.hour = n.hour.toNat
  minute : t.minute = n.minute.toNat
  second : t.second = n.second.toNat

/-- The time is in minute 0 of the next hour. After 23 hours this is the first hour of the next day, and after the
last day of the century it is in the year 2100. -/
structure RollsOver (n : TimeNumbers) (t : Timestamp) : Prop where
  minute : t.minute = 0
  second : t.second = n.second.toNat
  same_day : n.hour.toNat < 23 → t.hour = n.hour.toNat + 1 ∧ t.date.number = n.dayNumber
  next_day : n.hour.toNat = 23 → t.hour = 0 ∧ t.date.number = n.dayNumber + 1
  year : t.date.year ≤ 2099 ∨ t.date.year = 2100 ∧ t.date.month = 1 ∧ t.date.day = 1 ∧ t.hour = 0

theorem toNat_of_minute_ne (hminute : n.minute ≠ 60) : n.minute.toNat ≠ 60 :=
  fun h => hminute (UInt8.toNat_inj.mp h)

/-! ## Numbers of a time -/

/-- Without a minute 60 the numbers are those of the time. -/
theorem time?_eq_some_iff_of_ne (hminute : n.minute ≠ 60) : n.time? = some t ↔ n.Verbatim t := by
  simp only [time?, if_neg hminute, Option.map_id', Timestamp.ofNumbers?_eq_some_iff]
  constructor
  · rintro ⟨hyear, hmonth, hday, hhour, hmin, hsecond⟩
    exact ⟨hyear, hmonth, hday, hhour, hmin, hsecond⟩
  · rintro ⟨hyear, hmonth, hday, hhour, hmin, hsecond⟩
    exact ⟨hyear, hmonth, hday, hhour, hmin, hsecond⟩

/-- With it the time is one hour after that of the minute 0. -/
theorem time?_eq_some_iff_of_eq (hminute : n.minute = 60) :
    n.time? = some t ↔ ∃ u : Timestamp, TimeNumbers.Verbatim { n with minute := 0 } u ∧ u.nextHour = t := by
  simp only [time?, if_pos hminute, Option.map_eq_some_iff, Timestamp.ofNumbers?_eq_some_iff]
  constructor
  · rintro ⟨u, ⟨hyear, hmonth, hday, hhour, hmin, hsecond⟩, hnext⟩
    exact ⟨u, ⟨hyear, hmonth, hday, hhour, hmin, hsecond⟩, hnext⟩
  · rintro ⟨u, ⟨hyear, hmonth, hday, hhour, hmin, hsecond⟩, hnext⟩
    exact ⟨u, ⟨hyear, hmonth, hday, hhour, hmin, hsecond⟩, hnext⟩

theorem Verbatim.number_eq (h : n.Verbatim t) : t.date.number = n.dayNumber := by
  rw [Date.number, h.year, h.month, h.day, dayNumber]

/-- The numbers of a time exist, and they are those of its instant. -/
theorem Verbatim.exists_and_instant (h : n.Verbatim t) : n.Exists ∧ t.instant = n.instant := by
  have hday := t.date.exists_day
  have hmonth := t.date.month_of_exists
  obtain ⟨hhour, hminute, hsecond⟩ := t.exists_time
  rw [h.year, h.month, h.day] at hday
  rw [h.month] at hmonth
  rw [h.hour] at hhour
  rw [h.minute] at hminute
  rw [h.second] at hsecond
  refine ⟨⟨hmonth, hday, by omega, by omega, by omega⟩, ?_⟩
  rw [Timestamp.instant_eq, h.number_eq, h.hour, h.minute, h.second, instant]

theorem exists_and_instant_of_time? (h : n.time? = some t) : n.Exists ∧ t.instant = n.instant := by
  by_cases hminute : n.minute = 60
  · obtain ⟨u, hu, rfl⟩ := (time?_eq_some_iff_of_eq hminute).mp h
    obtain ⟨hexists, hinstant⟩ := hu.exists_and_instant
    have hsixty : n.minute.toNat = 60 := congrArg UInt8.toNat hminute
    have hzero : TimeNumbers.instant { n with minute := 0 } + 3600 = n.instant := by
      simp only [instant, hsixty, dayNumber, UInt8.toNat_zero]
      omega
    refine ⟨⟨hexists.month, hexists.day, hexists.hour, by omega, hexists.second⟩, ?_⟩
    rw [Timestamp.instant_nextHour, hinstant, hzero]
  · exact ((time?_eq_some_iff_of_ne hminute).mp h).exists_and_instant

/-- Numbers that exist are those of a time. -/
theorem Exists.time?_isSome (h : n.Exists) : ∃ t, n.time? = some t := by
  have hhour := h.hour
  have hsecond := h.second
  let d : Date := ⟨2000 + n.year.toNat, n.month.toNat, n.day.toNat, h.day⟩
  by_cases hminute : n.minute = 60
  · let u : Timestamp := ⟨d, n.hour.toNat, 0, n.second.toNat, by omega, by decide, by omega⟩
    exact ⟨u.nextHour, (time?_eq_some_iff_of_eq hminute).mpr ⟨u, ⟨rfl, rfl, rfl, rfl, rfl, rfl⟩, rfl⟩⟩
  · have hlt : n.minute.toNat < 60 := Nat.lt_of_le_of_ne h.minute (toNat_of_minute_ne hminute)
    let t : Timestamp := ⟨d, n.hour.toNat, n.minute.toNat, n.second.toNat, by omega, hlt, by omega⟩
    exact ⟨t, (time?_eq_some_iff_of_ne hminute).mpr ⟨rfl, rfl, rfl, rfl, rfl, rfl⟩⟩

/-- The time of the numbers is the one at their instant. -/
theorem time?_eq_some_iff : n.time? = some t ↔ n.Exists ∧ t.instant = n.instant := by
  refine ⟨exists_and_instant_of_time?, ?_⟩
  rintro ⟨hexists, hinstant⟩
  obtain ⟨u, hu⟩ := hexists.time?_isSome
  have hsame : t.instant = u.instant := hinstant.trans (exists_and_instant_of_time? hu).2.symm
  rw [hu, Timestamp.instant_inj.mp hsame]

/-! ## The hour after a minute 60 -/

theorem rollsOver_of_time? (hyear : n.year.toNat < 100) (hminute : n.minute = 60) (h : n.time? = some t) :
    n.RollsOver t := by
  obtain ⟨u, hu, rfl⟩ := (time?_eq_some_iff_of_eq hminute).mp h
  have hnumber : u.date.number = n.dayNumber := hu.number_eq
  have hhour : u.hour = n.hour.toNat := hu.hour
  have huyear : u.date.year = 2000 + n.year.toNat := hu.year
  unfold Timestamp.nextHour
  split
  · next hearly =>
    exact
      { minute := hu.minute
        second := hu.second
        same_day := fun _ => ⟨congrArg (· + 1) hhour, hnumber⟩
        next_day := fun hlate => by omega
        year := .inl (by simp only; omega) }
  · next hlate =>
    refine
      { minute := hu.minute
        second := hu.second
        same_day := fun hearly => by omega
        next_day := fun _ => ⟨rfl, u.date.number_next.trans (congrArg (· + 1) hnumber)⟩
        year := ?_ }
    -- Only the last day of 2099 is followed by one of the year 2100.
    by_cases hlast : u.date.next.year ≤ 2099
    · exact .inl hlast
    · obtain ⟨hnext, hmonth, hday⟩ := Date.next_of_year_ne (d := u.date) (by omega)
      exact .inr ⟨by simp only; omega, hmonth, hday, rfl⟩

end TimeNumbers

/-- Twelve characters are read as a time exactly if they are the digits of numbers that a time has, the minute
being 60 at most, and the time read is the one at their instant: with these six numbers, save that a minute 60
leads into the next hour. -/
theorem readTimestamp_eq_ok_iff_instant {field : List Char} (hlen : field.length = 12) :
    ((∃ t, readTimestamp field = .ok t) ↔ ∃ n : TimeNumbers, n.SpelledBy field ∧ n.Exists) ∧
      ∀ t, readTimestamp field = .ok t ↔
        ∃ n : TimeNumbers, n.SpelledBy field ∧ n.Exists ∧ t.instant = n.instant ∧
          (n.minute ≠ 60 → n.Verbatim t) ∧ (n.minute = 60 → n.RollsOver t) := by
  have hread (t : Timestamp) :
      readTimestamp field = .ok t ↔ ∃ n : TimeNumbers, n.SpelledBy field ∧ n.time? = some t :=
    ⟨fun h => readTimestamp_eq_ok_iff.mp ⟨hlen, h⟩, fun h => (readTimestamp_eq_ok_iff.mpr h).2⟩
  simp only [hread]
  constructor
  · constructor
    · rintro ⟨t, n, hspelled, ht⟩
      exact ⟨n, hspelled, (TimeNumbers.time?_eq_some_iff.mp ht).1⟩
    · rintro ⟨n, hspelled, hexists⟩
      obtain ⟨t, ht⟩ := hexists.time?_isSome
      exact ⟨t, n, hspelled, ht⟩
  · intro t
    constructor
    · rintro ⟨n, hspelled, ht⟩
      obtain ⟨hexists, hinstant⟩ := TimeNumbers.time?_eq_some_iff.mp ht
      have hyear := hspelled.year_field.lt_hundred
      exact ⟨n, hspelled, hexists, hinstant, fun hne => (TimeNumbers.time?_eq_some_iff_of_ne hne).mp ht,
        fun hminute => TimeNumbers.rollsOver_of_time? hyear hminute ht⟩
    · rintro ⟨n, hspelled, hexists, hinstant, -, -⟩
      exact ⟨n, hspelled, TimeNumbers.time?_eq_some_iff.mpr ⟨hexists, hinstant⟩⟩

/-- The last minute 60 of the century is the first minute of the next one. -/
theorem readTimestamp_end_of_century :
    "991231236059".toList.length = 12 ∧
      readTimestamp "991231236059".toList =
        .ok ⟨⟨2100, 1, 1, by decide⟩, 0, 0, 59, by decide, by decide, by decide⟩ := by
  have hlen : "991231236059".toList.length = 12 := rfl
  have hspelled : TimeNumbers.SpelledBy ⟨99, 12, 31, 23, 60, 59⟩ "991231236059".toList :=
    { length_eq := hlen
      year_field := decField_writeDec (a := 99) (by decide)
      month_field := decField_writeDec (a := 12) (by decide)
      day_field := decField_writeDec (a := 31) (by decide)
      hour_field := decField_writeDec (a := 23) (by decide)
      minute_field := decField_writeDec (a := 60) (by decide)
      second_field := decField_writeDec (a := 59) (by decide) }
  have hexists : TimeNumbers.Exists ⟨99, 12, 31, 23, 60, 59⟩ :=
    ⟨by decide, by decide, by decide, by decide, by decide⟩
  refine ⟨hlen, ((readTimestamp_eq_ok_iff_instant hlen).2 _).mpr
    ⟨⟨99, 12, 31, 23, 60, 59⟩, hspelled, hexists, rfl, fun hne => absurd rfl hne, fun _ => ?_⟩⟩
  exact ⟨rfl, rfl, fun hearly => absurd hearly (by decide), fun _ => ⟨rfl, rfl⟩, .inr ⟨rfl, rfl, rfl, rfl⟩⟩

end AlarmPanel
