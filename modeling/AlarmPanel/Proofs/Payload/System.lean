import AlarmPanel.Proofs.Frame.Time
import AlarmPanel.Proofs.Text.Bytes
import AlarmPanel.SystemEvent

/-!
# The payload of a system event

A system event is written as its type, its zone in decimal and its area, two digits each. Only a zone
above 99 cannot be written (`SystemEvent.encode_eq_ok_iff`), and whatever is written is read back
(`SystemEvent.decode_encode`). What is read is exactly what begins with such digits, in either case
(`SystemEvent.decode_eq_ok_iff`), so it can be written again (`SystemEvent.encode_of_spelledBy`).
-/

namespace AlarmPanel

theorem EventType.ofCode_eq_ok_iff {code : UInt8} {type : EventType} :
    ofCode code = .ok type ↔ type.code = code := by
  constructor
  · intro h
    unfold ofCode at h
    split at h
    · next found hfound =>
      obtain rfl := Except.ok.inj h
      have hcode := List.find?_some hfound
      exact eq_of_beq hcode
    · cases h
  · rintro rfl
    rw [ofCode, ofCode?_code]

namespace SystemEvent

/-! ## What is written -/

/-- The six digits of an event. -/
def digits (e : SystemEvent) : List Char :=
  Text.writeHex .lower 2 e.type.code.toNat ++ Text.writeDec 2 e.zone.toNat ++
    Text.writeHex .lower 2 e.area.toNat

@[simp] theorem length_digits (e : SystemEvent) : e.digits.length = 6 := by
  simp [digits]

@[simp] theorem isAscii_digits (e : SystemEvent) : Text.isAscii e.digits = true := by
  simp [digits]

theorem encode_eq_ok_iff {e : SystemEvent} {payload : String} :
    e.encode = .ok payload ↔ e.zone ≤ 99 ∧ payload = String.ofList e.digits := by
  unfold encode
  split
  · next hzone =>
    have hnot : ¬ e.zone ≤ 99 := UInt8.not_le.mpr hzone
    simp [hnot]
  · next hzone =>
    have hle : e.zone ≤ 99 := UInt8.not_lt.mp hzone
    simp [hle, digits, eq_comm]

/-! ## What is read -/

theorem payloadField_eq_ok_iff {before rest field : List Char} {start stop : Nat}
    (hbefore : Text.byteLength before = start) :
    payloadField (before ++ rest) start stop = .ok field ↔
      ∃ after, rest = field ++ after ∧ Text.byteLength field = stop - start := by
  rw [← Text.byteRange?_append_eq_some_iff hbefore, payloadField]
  cases Text.byteRange? start stop (before ++ rest) <;> simp

/-- The text begins with the digits of the event, in either case. -/
def SpelledBy (e : SystemEvent) (payload : List Char) : Prop :=
  ∃ type zone area rest, payload = type ++ zone ++ area ++ rest ∧
    HexField 2 type e.type.code ∧ DecField zone e.zone ∧ HexField 2 area e.area

/-- What is read are exactly the texts that begin with the digits of an event. -/
theorem decode_eq_ok_iff {payload : String} {e : SystemEvent} :
    decode payload = .ok e ↔ e.SpelledBy payload.toList := by
  unfold decode
  generalize payload.toList = cs
  constructor
  · intro h
    simp only [bind_eq_ok_iff] at h
    obtain ⟨typeField, htypeField, code, hcode, type, htype, zoneField, hzoneField, zone, hzone, areaField,
      hareaField, area, harea, h⟩ := h
    obtain rfl := pure_eq_ok_iff.mp h
    rw [← List.nil_append cs] at htypeField
    obtain ⟨afterType, rfl, htypeLen⟩ := (payloadField_eq_ok_iff Text.byteLength_nil).mp htypeField
    obtain ⟨afterZone, rfl, hzoneLen⟩ := (payloadField_eq_ok_iff htypeLen).mp hzoneField
    have hbefore : Text.byteLength (typeField ++ zoneField) = 4 := by
      rw [Text.byteLength_append, htypeLen, hzoneLen]
    rw [← List.append_assoc] at hareaField
    obtain ⟨rest, rfl, hareaLen⟩ := (payloadField_eq_ok_iff hbefore).mp hareaField
    obtain rfl := EventType.ofCode_eq_ok_iff.mp htype
    exact ⟨typeField, zoneField, areaField, rest, by simp only [List.append_assoc],
      (readHexField_eq_ok_iff_of_byteLength (by decide) htypeLen).mp hcode,
      (readDecField_eq_ok_iff_of_byteLength hzoneLen).mp hzone,
      (readHexField_eq_ok_iff_of_byteLength (by decide) hareaLen).mp harea⟩
  · rintro ⟨type, zone, area, rest, rfl, htype, hzone, harea⟩
    have htypeField : payloadField (type ++ zone ++ area ++ rest) 0 2 = .ok type := by
      rw [List.append_assoc, List.append_assoc, ← List.nil_append (type ++ _)]
      exact (payloadField_eq_ok_iff Text.byteLength_nil).mpr ⟨_, rfl, htype.byteLength_eq⟩
    have hzoneField : payloadField (type ++ zone ++ area ++ rest) 2 4 = .ok zone := by
      rw [List.append_assoc, List.append_assoc]
      exact (payloadField_eq_ok_iff htype.byteLength_eq).mpr ⟨_, rfl, hzone.byteLength_eq⟩
    have hareaField : payloadField (type ++ zone ++ area ++ rest) 4 6 = .ok area := by
      have hbefore : Text.byteLength (type ++ zone) = 4 := by
        rw [Text.byteLength_append, htype.byteLength_eq, hzone.byteLength_eq]
      rw [List.append_assoc]
      exact (payloadField_eq_ok_iff hbefore).mpr ⟨_, rfl, harea.byteLength_eq⟩
    refine bind_eq_ok_iff.mpr ⟨_, htypeField, bind_eq_ok_iff.mpr ⟨_, htype.read (by decide), ?_⟩⟩
    refine bind_eq_ok_iff.mpr ⟨_, EventType.ofCode_eq_ok_iff.mpr rfl, bind_eq_ok_iff.mpr ⟨_, hzoneField, ?_⟩⟩
    refine bind_eq_ok_iff.mpr ⟨_, hzone.read, bind_eq_ok_iff.mpr ⟨_, hareaField, ?_⟩⟩
    exact bind_eq_ok_iff.mpr ⟨_, harea.read (by decide), rfl⟩

/-- Nothing is read of a text but its first six characters, and the event is written as these in lower case. -/
theorem encode_of_spelledBy {e : SystemEvent} {payload : List Char} (h : e.SpelledBy payload) :
    e.zone ≤ 99 ∧ e.encode = .ok (String.ofList ((payload.take 6).map Char.toLower)) := by
  obtain ⟨type, zone, area, rest, rfl, htype, hzone, harea⟩ := h
  have hle : e.zone ≤ 99 := UInt8.le_iff_toNat_le.mpr (Nat.le_of_lt_succ hzone.lt_hundred)
  have hlen : (type ++ zone ++ area).length = 6 := by
    rw [List.length_append, List.length_append, htype.1, hzone.1, harea.1]
  have hlower : (type ++ zone ++ area).map Char.toLower = e.digits := by
    rw [List.map_append, List.map_append, htype.map_toLower, hzone.2.map_toLower_of_dec, harea.map_toLower,
      hzone.eq_writeDec, digits]
  rw [List.take_left' hlen, hlower]
  exact ⟨hle, encode_eq_ok_iff.mpr ⟨hle, rfl⟩⟩

/-- The digits of an event spell it, whatever follows them. -/
theorem spelledBy_digits {e : SystemEvent} (h : e.zone ≤ 99) (rest : List Char) :
    e.SpelledBy (e.digits ++ rest) :=
  ⟨_, _, _, rest, rfl, hexField_writeHex_two .lower e.type.code,
    decField_writeDec (Nat.lt_succ_of_le (UInt8.le_iff_toNat_le.mp h)), hexField_writeHex_two .lower e.area⟩

/-- What is written for an event is read back as that event. -/
theorem decode_encode {e : SystemEvent} {payload : String} (h : e.encode = .ok payload) :
    decode payload = .ok e := by
  obtain ⟨hzone, rfl⟩ := encode_eq_ok_iff.mp h
  have hspelled := spelledBy_digits hzone []
  rw [List.append_nil] at hspelled
  rw [decode_eq_ok_iff, String.toList_ofList]
  exact hspelled

end SystemEvent

end AlarmPanel
