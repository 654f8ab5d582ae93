import AlarmPanel.Proofs.Frame.Time

/-!
# The numbers of a time

Twelve characters are read as a time exactly if they are six numbers of two digits that a time has, save that
the minute may be 60 (`readTimestamp_eq_ok_iff`). Such a minute is the only thing that is not written again as
it was: what is read is then the next hour (`TimeNumbers.SpelledBy.digits_eq_iff`).
-/

namespace AlarmPanel

namespace Timestamp

theorem ofNumbers?_eq_some_iff {year : Int} {month day hour minute second : Nat} {t : Timestamp} :
    ofNumbers? year month day hour minute second = some t ↔
      t.date.year = year ∧ t.date.month = month ∧ t.date.day = day ∧ t.hour = hour ∧
        t.minute = minute ∧ t.second = second := by
  constructor
  · intro h
    obtain ⟨date, hdate, h⟩ := Option.bind_eq_some_iff.mp h
    unfold Date.ofNumbers? at hdate
    split at hdate
    · split at h
      · obtain rfl := Option.some.inj h
        obtain rfl := Option.some.inj hdate
        exact ⟨rfl, rfl, rfl, rfl, rfl, rfl⟩
      · cases h
    · cases hdate
  · rintro ⟨rfl, rfl, rfl, rfl, rfl, rfl⟩
    exact t.ofNumbers?_self

end Timestamp

/-- Two characters of a text, at a place counted in twos. -/
def charPair (cs : List Char) (place : Nat) : List Char := (cs.drop (2 * place)).take 2

theorem length_charPair {cs : List Char} {place : Nat} (h : 2 * place + 2 ≤ cs.length) :
    (charPair cs place).length = 2 := by
  rw [charPair, List.length_take, List.length_drop]
  omega

theorem charPair_append (cs : List Char) (place : Nat) :
    charPair cs place ++ cs.drop (2 * (place + 1)) = cs.drop (2 * place) := by
  rw [charPair, Nat.mul_succ, ← List.drop_drop, List.take_append_drop]

/-- Twelve characters are six pairs. -/
theorem charPairs_of_length {cs : List Char} (h : cs.length = 12) :
    charPair cs 0 ++ charPair cs 1 ++ charPair cs 2 ++ charPair cs 3 ++ charPair cs 4 ++ charPair cs 5 = cs := by
  have hend : cs.drop (2 * (5 + 1)) = [] := List.drop_of_length_le (by omega)
  have hlast := charPair_append cs 5
  rw [hend, List.append_nil] at hlast
  rw [hlast]
  simp only [List.append_assoc, charPair_append]
  rfl

/-- The six numbers of a time on the wire, as they stand there. -/
structure TimeNumbers where
  year : UInt8
  month : UInt8
  day : UInt8
  hour : UInt8
  minute : UInt8
  second : UInt8

namespace TimeNumbers

/-- The time that the numbers stand for. Minute 60 is minute 0 of the next hour. -/
def time? (n : TimeNumbers) : Option Timestamp :=
  (Timestamp.ofNumbers? (2000 + n.year.toNat) n.month.toNat n.day.toNat n.hour.toNat
    (if n.minute = 60 then 0 else n.minute.toNat) n.second.toNat).map fun t =>
      if n.minute = 60 then t.nextHour else t

/-- The characters are the numbers one after the other, two digits each. -/
structure SpelledBy (n : TimeNumbers) (field : List Char) : Prop where
  length_eq : field.length = 12
  year_field : DecField (charPair field 0) n.year
  month_field : DecField (charPair field 1) n.month
  day_field : DecField (charPair field 2) n.day
  hour_field : DecField (charPair field 3) n.hour
  minute_field : DecField (charPair field 4) n.minute
  second_field : DecField (charPair field 5) n.second

end TimeNumbers

/-- Twelve characters are read as a time exactly if they spell the numbers of one. -/
theorem readTimestamp_eq_ok_iff {field : List Char} {t : Timestamp} :
    field.length = 12 ∧ readTimestamp field = .ok t ↔
      ∃ n : TimeNumbers, n.SpelledBy field ∧ n.time? = some t := by
  have hpair (hlen : field.length = 12) (place : Nat) (hplace : place < 6) {a : UInt8} :
      readDecField ((field.drop (2 * place)).take 2) = .ok a ↔ DecField (charPair field place) a := by
    have htwo : (charPair field place).length = 2 := length_charPair (by omega)
    exact ⟨fun h => ⟨htwo, ((readDecField_eq_ok_iff (Nat.le_of_eq htwo)).mp h).2⟩, DecField.read⟩
  constructor
  · rintro ⟨hlen, h⟩
    simp only [readTimestamp, bind_eq_ok_iff] at h
    obtain ⟨year, hyear, month, hmonth, day, hday, hour, hhour, minute, hminute, second, hsecond, h⟩ := h
    refine ⟨⟨year, month, day, hour, minute, second⟩, ⟨hlen, (hpair hlen 0 (by decide)).mp hyear,
      (hpair hlen 1 (by decide)).mp hmonth, (hpair hlen 2 (by decide)).mp hday,
      (hpair hlen 3 (by decide)).mp hhour, (hpair hlen 4 (by decide)).mp hminute,
      (hpair hlen 5 (by decide)).mp hsecond⟩, ?_⟩
    simp only [beq_iff_eq] at h
    split at h
    next => cases h
    next u hu =>
      obtain rfl := Except.ok.inj h
      rw [TimeNumbers.time?, hu, Option.map_some]
  · rintro ⟨n, h, ht⟩
    refine ⟨h.length_eq, ?_⟩
    refine bind_eq_ok_iff.mpr ⟨_, (hpair h.length_eq 0 (by decide)).mpr h.year_field, ?_⟩
    refine bind_eq_ok_iff.mpr ⟨_, (hpair h.length_eq 1 (by decide)).mpr h.month_field, ?_⟩
    refine bind_eq_ok_iff.mpr ⟨_, (hpair h.length_eq 2 (by decide)).mpr h.day_field, ?_⟩
    refine bind_eq_ok_iff.mpr ⟨_, (hpair h.length_eq 3 (by decide)).mpr h.hour_field, ?_⟩
    refine bind_eq_ok_iff.mpr ⟨_, (hpair h.length_eq 4 (by decide)).mpr h.minute_field, ?_⟩
    refine bind_eq_ok_iff.mpr ⟨_, (hpair h.length_eq 5 (by decide)).mpr h.second_field, ?_⟩
    obtain ⟨u, hu, rfl⟩ := Option.map_eq_some_iff.mp ht
    simp only [beq_iff_eq]
    rw [hu]

namespace TimeNumbers

variable {n : TimeNumbers} {field : List Char} {t : Timestamp}

/-- The field is what is written for its numbers. -/
theorem SpelledBy.eq_writeDec (h : n.SpelledBy field) :
    field = Text.writeDec 2 n.year.toNat ++ Text.writeDec 2 n.month.toNat ++ Text.writeDec 2 n.day.toNat ++
      Text.writeDec 2 n.hour.toNat ++ Text.writeDec 2 n.minute.toNat ++ Text.writeDec 2 n.second.toNat := by
  rw [← h.year_field.eq_writeDec, ← h.month_field.eq_writeDec, ← h.day_field.eq_writeDec,
    ← h.hour_field.eq_writeDec, ← h.minute_field.eq_writeDec, ← h.second_field.eq_writeDec,
    charPairs_of_length h.length_eq]

theorem SpelledBy.minute_eq_iff (h : n.SpelledBy field) :
    charPair field 4 = ['6', '0'] ↔ n.minute = 60 := by
  have hsixty : DecField ['6', '0'] 60 := decField_writeDec (a := 60) (by decide)
  constructor
  · intro hminute
    have hfield := h.minute_field
    rw [hminute] at hfield
    exact UInt8.toNat_inj.mp (hfield.2.unique Text.decValue?_eq_some_iff hsixty.2)
  · intro hminute
    rw [h.minute_field.eq_writeDec, hminute]
    exact hsixty.eq_writeDec.symm

/-- A time that has been read is written as it stood exactly if its minute was not 60. -/
theorem SpelledBy.digits_eq_iff (h : n.SpelledBy field) (ht : n.time? = some t) :
    t.digits = field ↔ charPair field 4 ≠ ['6', '0'] := by
  rw [ne_eq, h.minute_eq_iff]
  constructor
  · rintro hdigits hminute
    -- No time has minute 60, so other digits stand in its place.
    have hfield : DecField (charPair t.digits 4) n.minute := hdigits ▸ h.minute_field
    have hwritten : charPair t.digits 4 = Text.writeDec 2 t.minute := rfl
    have hlt := t.exists_time.2.1
    have hspells : Text.Spells 10 Text.IsDecDigit (Text.writeDec 2 t.minute) t.minute :=
      Text.spells_writeDec (by omega)
    rw [hwritten, hminute] at hfield
    have hsame : t.minute = 60 := hspells.unique Text.decValue?_eq_some_iff hfield.2
    omega
  · intro hminute
    obtain ⟨u, hu, hnext⟩ := Option.map_eq_some_iff.mp ht
    rw [if_neg hminute] at hu hnext
    obtain rfl := hnext
    obtain ⟨hyear, hmonth, hday, hhour, hmin, hsecond⟩ := Timestamp.ofNumbers?_eq_some_iff.mp hu
    have hshort : (u.date.year % 100).toNat = n.year.toNat := by
      have := h.year_field.lt_hundred
      omega
    rw [Timestamp.digits, hshort, hmonth, hday, hhour, hmin, hsecond]
    exact h.eq_writeDec.symm

end TimeNumbers

end AlarmPanel
