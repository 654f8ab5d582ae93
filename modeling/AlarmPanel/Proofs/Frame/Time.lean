import AlarmPanel.Frame.Encode
import AlarmPanel.Proofs.Frame.Fields

/-!
# Times on the wire

The twelve digits of a time leave out its century. Reading them back puts the year into the century of
the year 2000 (`readTimestamp_digits`), so a time is read back exactly if it lies in that century
(`readTimestamp_digits_eq_ok_iff`).
-/

namespace AlarmPanel

/-! ## Decimal fields -/

theorem readDecField_writeDec {n : Nat} (h : n < 100) :
    readDecField (Text.writeDec 2 n) = .ok (UInt8.ofNat n) := by
  have hspells : Text.Spells 10 Text.IsDecDigit (Text.writeDec 2 n) n := Text.spells_writeDec h
  have hne : Text.writeDec 2 n ≠ [] :=
    List.ne_nil_of_length_pos (by rw [Text.length_writeDec]; decide)
  rw [readDecField, Text.readDec?_eq_some_iff.mpr ⟨hne, hspells⟩]

/-! ## Dates -/

theorem daysInMonth_le (year : Int) (month : Nat) : daysInMonth year month ≤ 31 := by
  unfold daysInMonth
  split
  case h_12 => split <;> decide
  all_goals decide

namespace Timestamp

/-- A time is made of its own numbers. -/
theorem ofNumbers?_self (t : Timestamp) :
    ofNumbers? t.date.year t.date.month t.date.day t.hour t.minute t.second = some t := by
  simp [ofNumbers?, Date.ofNumbers?, t.date.exists_day, t.exists_time]

theorem year_of_ofNumbers? {year : Int} {month day hour minute second : Nat} {t : Timestamp}
    (h : ofNumbers? year month day hour minute second = some t) : t.date.year = year := by
  obtain ⟨date, hdate, h⟩ := Option.bind_eq_some_iff.mp h
  split at h
  · obtain rfl := Option.some.inj h
    unfold Date.ofNumbers? at hdate
    split at hdate
    · obtain rfl := Option.some.inj hdate
      rfl
    · cases hdate
  · cases h

/-! ## The twelve digits -/

@[simp] theorem length_digits (t : Timestamp) : t.digits.length = 12 := by
  simp [digits]

@[simp] theorem isAscii_digits (t : Timestamp) : Text.isAscii t.digits = true := by
  simp [digits]

/-- The two digits of the year. -/
def shortYear (t : Timestamp) : Nat := (t.date.year % 100).toNat

theorem shortYear_lt (t : Timestamp) : t.shortYear < 100 := by
  unfold shortYear
  omega

/-- Reading a time back takes each of its numbers, and the year from the century of 2000. -/
theorem readTimestamp_digits {s : Timestamp} (t : Timestamp) :
    readTimestamp t.digits = .ok s ↔
      ofNumbers? (2000 + t.shortYear) t.date.month t.date.day t.hour t.minute t.second = some s := by
  have hmonth : t.date.month < 100 := by
    have := t.date.month_of_exists
    omega
  have hday : t.date.day < 100 := by
    have := t.date.exists_day
    have := daysInMonth_le t.date.year t.date.month
    omega
  obtain ⟨hhour, hminute, hsecond⟩ := t.exists_time
  have h60 : (UInt8.ofNat t.minute == 60) = false := by
    rw [beq_eq_false_iff_ne, ne_eq, ← UInt8.toNat_inj, toNat_ofNat_byte (by omega)]
    change ¬ t.minute = 60
    omega
  have h0 : readDecField ((t.digits.drop (2 * 0)).take 2) = .ok (UInt8.ofNat t.shortYear) :=
    readDecField_writeDec t.shortYear_lt
  have h1 : readDecField ((t.digits.drop (2 * 1)).take 2) = .ok (UInt8.ofNat t.date.month) :=
    readDecField_writeDec hmonth
  have h2 : readDecField ((t.digits.drop (2 * 2)).take 2) = .ok (UInt8.ofNat t.date.day) :=
    readDecField_writeDec hday
  have h3 : readDecField ((t.digits.drop (2 * 3)).take 2) = .ok (UInt8.ofNat t.hour) :=
    readDecField_writeDec (by omega)
  have h4 : readDecField ((t.digits.drop (2 * 4)).take 2) = .ok (UInt8.ofNat t.minute) :=
    readDecField_writeDec (by omega)
  have h5 : readDecField ((t.digits.drop (2 * 5)).take 2) = .ok (UInt8.ofNat t.second) :=
    readDecField_writeDec (by omega)
  have hyear := t.shortYear_lt
  simp only [readTimestamp, h0, h1, h2, h3, h4, h5, bind, Except.bind, h60,
    toNat_ofNat_byte (show t.shortYear < 256 by omega),
    toNat_ofNat_byte (show t.date.month < 256 by omega),
    toNat_ofNat_byte (show t.date.day < 256 by omega),
    toNat_ofNat_byte (show t.hour < 256 by omega),
    toNat_ofNat_byte (show t.minute < 256 by omega),
    toNat_ofNat_byte (show t.second < 256 by omega), Bool.false_eq_true, if_false]
  split
  · next hnone => simp [hnone]
  · next r hr => rw [hr, Except.ok.injEq, Option.some.injEq]

/-- A time is read back exactly if it lies in the century of the year 2000. -/
theorem readTimestamp_digits_eq_ok_iff {t : Timestamp} :
    readTimestamp t.digits = .ok t ↔ 2000 ≤ t.date.year ∧ t.date.year ≤ 2099 := by
  have hshort : (t.shortYear : Int) = t.date.year % 100 := by
    unfold shortYear
    omega
  rw [readTimestamp_digits]
  constructor
  · intro h
    have hyear := year_of_ofNumbers? h
    omega
  · rintro ⟨hlo, hhi⟩
    have hyear : 2000 + (t.shortYear : Int) = t.date.year := by omega
    rw [hyear, ofNumbers?_self]

end Timestamp

end AlarmPanel
