import AlarmPanel.Proofs.Frame.Grammar
import AlarmPanel.Proofs.Frame.Time

/-!
# Frames that survive the wire

Writing a frame forgets some of it: the start byte is made from three fields, and the length, the address
and the sequence number are cut to the width of their fields. `Frame.parts` are the parts of the line that
is written, and reading it gives a frame with as much of an address exactly if these parts spell that frame
(`Frame.decode_encode_iff_spell`). So the frames that are read back as they were are those whose own parts
spell them, and `Frame.Faithful` says which ones these are.
-/

namespace AlarmPanel

namespace Frame

/-! ## What is written -/

/-- The parts of the line that is written for a frame. -/
def parts (f : Frame) : LineParts where
  start := Text.writeHex .lower 2 f.start.toNat
  address := f.addressField
  length := Text.writeHex .lower 2 f.lengthField.toNat
  command := Text.writeHex .lower 2 f.command.code.toNat
  data := f.data.toList
  time := f.timestamp.elim [] Timestamp.digits
  checksum := Text.writeHex .upper 2 f.checksum.toNat

theorem toList_encode (f : Frame) : f.encode.toList = f.parts.line := String.toList_ofList

/-- The start byte shows whether there is a time, and whether there is an address outside an answer. -/
theorem start_eq (f : Frame) :
    f.start = if f.address.isSome = true ∧ f.isResponse = false then
        if f.timestamp.isSome = true then 0x87 else 0x83
      else if f.timestamp.isSome = true then 0x86 else 0x82 := by
  unfold start
  generalize f.address.isSome = a, f.isResponse = r, f.timestamp.isSome = t
  revert a r t
  decide

theorem start_eq_request_iff {f : Frame} :
    f.start = 0x83 ↔ (f.address.isSome = true ∧ f.isResponse = false) ∧ f.timestamp = none := by
  rw [start_eq]
  cases f.address <;> cases f.isResponse <;> cases f.timestamp <;> simp

theorem start_eq_response_iff {f : Frame} :
    f.start = 0x82 ↔ ¬ (f.address.isSome = true ∧ f.isResponse = false) ∧ f.timestamp = none := by
  rw [start_eq]
  cases f.address <;> cases f.isResponse <;> cases f.timestamp <;> simp

theorem start_odd_iff {f : Frame} :
    f.start.toNat % 2 = 1 ↔ f.address.isSome = true ∧ f.isResponse = false := by
  rw [start_eq]
  cases f.address <;> cases f.isResponse <;> cases f.timestamp <;> simp

theorem testBit_start (f : Frame) : f.start.toNat.testBit 2 = f.timestamp.isSome := by
  rw [start_eq]
  generalize f.address.isSome = a, f.isResponse = r, f.timestamp.isSome = t
  revert a r t
  decide

theorem toNat_lengthField (f : Frame) :
    f.lengthField.toNat = f.length % 128 + 128 * (f.seq.toNat % 2) := by
  have hlow : (UInt8.ofNat (f.length % 128)).toNat = f.length % 128 := toNat_ofNat_byte (by omega)
  have hhigh : ((f.seq &&& 0x01) <<< 7 : UInt8).toNat = (f.seq.toNat % 2) <<< 7 := by
    rw [UInt8.toNat_shiftLeft, UInt8.toNat_and]
    change (f.seq.toNat &&& 1) <<< 7 % 2 ^ 8 = _
    rw [Nat.and_one_is_mod, Nat.shiftLeft_eq]
    omega
  rw [lengthField, UInt8.toNat_or, hlow, hhigh, Nat.or_comm,
    ← Nat.shiftLeft_add_eq_or_of_lt (by omega : f.length % 128 < 2 ^ 7), Nat.shiftLeft_eq]
  omega

theorem length_addressField (f : Frame) :
    f.addressField.length =
      if f.address.isSome = true then if f.start = 0x83 then 1 else 2 else 0 := by
  unfold addressField
  cases f.address with
  | none => rfl
  | some a =>
    simp only [StartByte.isRequest_iff]
    split <;> simp

@[simp] theorem isAscii_addressField (f : Frame) : Text.isAscii f.addressField = true := by
  unfold addressField
  split
  · rfl
  · split <;> simp

theorem length_time (f : Frame) :
    (f.timestamp.elim [] Timestamp.digits).length = if f.timestamp.isSome = true then 12 else 0 := by
  cases f.timestamp <;> simp

/-- Only the data of a frame can put other characters than ASCII into its line. -/
theorem isAscii_encode (f : Frame) :
    Text.isAscii f.encode.toList = Text.isAscii f.data.toList := by
  have htime : Text.isAscii (f.timestamp.elim [] Timestamp.digits) = true := by
    cases f.timestamp <;> simp
  simp [toList_encode, LineParts.line, parts, htime]

end Frame

/-! ## Lines that are the same have the same parts -/

theorem AddressField.length_eq {start : UInt8} {n : Nat} {field : List Char}
    {address : Option UInt8} (h : AddressField start n field address) :
    field.length = if address.isSome = true then if start = 0x83 then 1 else 2 else 0 := by
  unfold AddressField at h
  split at h
  · obtain ⟨a, rfl, ha⟩ := h
    exact ha.1
  · obtain ⟨rfl, rfl⟩ := h
    rfl

theorem TimeField.length_eq {start : UInt8} {field : List Char} {time : Option Timestamp}
    (h : TimeField start field time) :
    field.length = if start.toNat.testBit 2 = true then 12 else 0 := by
  unfold TimeField at h
  split at h
  · next hbit =>
    obtain ⟨t, -, hlen, -⟩ := h
    rw [hlen, if_pos hbit]
  · next hbit =>
    obtain ⟨rfl, -⟩ := h
    rw [List.length_nil, if_neg hbit]

namespace Frame

/-- If the line of `f` spells a frame with an address as `f` has one, its parts are those that were
written. -/
theorem eq_parts_of_line_eq {f g : Frame} {p : LineParts} {start length : UInt8}
    (hp : p.Spell start length g) (hline : p.line = f.parts.line)
    (haddr : g.address.isSome = f.address.isSome) :
    p = f.parts ∧ start = f.start ∧ length = f.lengthField := by
  simp only [LineParts.line, List.append_assoc] at hline
  obtain ⟨hstart, hline⟩ := List.append_inj hline (by simp [hp.start_field.1, parts])
  have hs := hp.start_field
  rw [hstart] at hs
  obtain rfl : start = f.start := hs.unique (hexField_writeHex_two .lower f.start)
  obtain ⟨haddress, hline⟩ := List.append_inj hline (by
    rw [hp.address_field.length_eq, haddr]
    exact (length_addressField f).symm)
  obtain ⟨hlength, hline⟩ := List.append_inj hline (by simp [hp.length_field.1, parts])
  have hl := hp.length_field
  rw [hlength] at hl
  obtain rfl : length = f.lengthField := hl.unique (hexField_writeHex_two .lower f.lengthField)
  obtain ⟨hcommand, hline⟩ := List.append_inj hline (by simp [hp.command_field.1, parts])
  obtain ⟨sum, hsum⟩ := hp.checksum_field
  -- The data is what is left between the command and the time, whose length the start byte gives.
  have htime : p.time.length = f.parts.time.length := by
    rw [hp.time_field.length_eq, testBit_start]
    exact (length_time f).symm
  obtain ⟨hdata, hline⟩ := List.append_inj' hline (by
    rw [List.length_append, List.length_append, htime, hsum.1]
    simp [parts])
  obtain ⟨htime, hchecksum⟩ := List.append_inj hline htime
  refine ⟨?_, rfl, rfl⟩
  cases p
  exact LineParts.mk.injEq .. ▸ ⟨hstart, haddress, hlength, hcommand, hdata, htime, hchecksum⟩

theorem spell_parts_of_line_eq {f g : Frame} {p : LineParts} {start length : UInt8}
    (hp : p.Spell start length g) (hline : p.line = f.parts.line)
    (haddr : g.address.isSome = f.address.isSome) : f.parts.Spell f.start f.lengthField g := by
  obtain ⟨rfl, rfl, rfl⟩ := eq_parts_of_line_eq hp hline haddr
  exact hp

/-- The line of a frame is read as a frame with as much of an address exactly if its parts spell that
frame. -/
theorem decode_encode_iff_spell {f g : Frame} (haddr : g.address.isSome = f.address.isSome) :
    decode f.encode = .ok g ↔
      Text.isAscii f.data.toList = true ∧ f.parts.Spell f.start f.lengthField g := by
  rw [decode_eq_ok_iff, isAscii_encode, toList_encode]
  constructor
  · rintro ⟨hascii, p, start, length, hline, hp⟩
    exact ⟨hascii, spell_parts_of_line_eq hp hline haddr⟩
  · rintro ⟨hascii, hspell⟩
    exact ⟨hascii, f.parts, f.start, f.lengthField, rfl, hspell⟩

/-! ## The frames that are read back as they were -/

/-- The frame loses nothing on the wire: all that is cut or inferred there comes out as it was. -/
def Faithful (f : Frame) : Prop :=
  Text.isAscii f.data.toList = true ∧ f.seq ≤ 1 ∧
    (∀ t ∈ f.timestamp, 2000 ≤ t.date.year ∧ t.date.year ≤ 2099) ∧
    if f.isResponse = true then
      f.command = .userInterface ∧ f.timestamp = none ∧
        f.data.length % 2 = 0 ∧ f.data.length ≤ 254 ∧
        -- Sixteen characters in all make the reader look for an address.
        (f.address.isSome = true ∧ f.data.length = 6 ∨ f.address = none ∧ f.data.length ≠ 8)
    else match f.address, f.timestamp with
      | some a, none => a ≤ 15 ∧ f.data.length ≤ 127
      | _, some _ => f.data.length % 2 = 0 ∧ f.data.length ≤ 254
      | none, none =>
        f.command = .systemStatus ∧ f.data.length % 2 = 0 ∧ f.data.length ≤ 254 ∧
          f.data.length ≠ 8

theorem seq_eq_iff {f : Frame} : f.seq.toNat = f.lengthField.toNat / 128 ↔ f.seq ≤ 1 := by
  rw [toNat_lengthField, UInt8.le_iff_toNat_le]
  change _ ↔ f.seq.toNat ≤ 1
  omega

theorem timeField_parts_iff {f : Frame} :
    TimeField f.start f.parts.time f.timestamp ↔
      ∀ t ∈ f.timestamp, 2000 ≤ t.date.year ∧ t.date.year ≤ 2099 := by
  unfold TimeField
  rw [testBit_start]
  cases h : f.timestamp with
  | none => simp [parts, h]
  | some t => simp [parts, h, Timestamp.readTimestamp_digits_eq_ok_iff]

/-- The length byte holds the length of the data if that has an even number of characters and is not too
long; in a request only the latter counts. -/
theorem length_eq_dataWidth_iff {f : Frame} (hascii : Text.isAscii f.data.toList = true) :
    f.data.toList.length = dataWidth f.start f.lengthField ↔
      if f.start = 0x83 then f.data.length ≤ 127
      else f.data.length % 2 = 0 ∧ f.data.length ≤ 254 := by
  have hlen : f.length = if f.start = 0x83 then f.data.length else f.data.length / 2 := by
    simp only [Frame.length, Text.byteLength_eq_length hascii, StartByte.isRequest_iff,
      String.length_toList]
  rw [String.length_toList, dataWidth, toNat_lengthField, hlen]
  split <;> omega

theorem length_line_parts (f : Frame) :
    f.parts.line.length =
      8 + f.addressField.length + f.data.length + if f.timestamp.isSome = true then 12 else 0 := by
  simp only [LineParts.line, parts, List.length_append, Text.length_writeHex, length_time,
    String.length_toList]
  omega

/-- The one digit of a request holds the addresses below sixteen. -/
theorem hexField_low_digit_iff {a : UInt8} :
    HexField 1 (Text.writeHex .lower 1 (a &&& 0x0f).toNat) a ↔ a ≤ 15 := by
  rw [UInt8.le_iff_toNat_le]
  change _ ↔ a.toNat ≤ 15
  constructor
  · intro h
    have hlt := h.lt_sixteen
    omega
  · intro h
    rw [toNat_and_lowDigit, Nat.mod_eq_of_lt (by omega)]
    exact hexField_writeHex .lower (by omega)

/-- Without an address none is looked for, unless the line looks like an answer that has one. -/
theorem addressField_parts_of_none {f : Frame} (h : f.address = none) :
    AddressField f.start f.parts.line.length f.parts.address f.address ↔
      ¬ (f.start = 0x82 ∧ f.parts.line.length = 16) := by
  simp [AddressField, start_odd_iff, h, parts, addressField]

theorem addressField_parts_of_some {f : Frame} {a : UInt8} (h : f.address = some a) :
    AddressField f.start f.parts.line.length f.parts.address f.address ↔
      if f.isResponse = true then f.start = 0x82 ∧ f.parts.line.length = 16
      else f.start = 0x83 → a ≤ 15 := by
  have hfield : HexField (if f.start = 0x83 then 1 else 2) f.parts.address a ↔
      (f.start = 0x83 → a ≤ 15) := by
    simp only [parts, addressField, h, StartByte.isRequest_iff]
    by_cases hstart : f.start = 0x83
    · rw [if_pos hstart, if_pos hstart, hexField_low_digit_iff]
      exact ⟨fun ha _ => ha, fun ha => ha hstart⟩
    · rw [if_neg hstart, if_neg hstart]
      exact ⟨fun _ h83 => absurd h83 hstart, fun _ => hexField_writeHex_two .lower a⟩
  simp only [AddressField, start_odd_iff, h, Option.some.injEq, exists_eq_left', hfield,
    Option.isSome_some, true_and]
  cases hresponse : f.isResponse with
  | true =>
    by_cases hstart : f.start = 0x82
    · by_cases hlen : f.parts.line.length = 16 <;> simp [hstart, hlen]
    · simp [hstart]
  | false => simp

theorem spell_parts_self_iff {f : Frame} :
    f.parts.Spell f.start f.lengthField f ↔
      AddressField f.start f.parts.line.length f.parts.address f.address ∧
        f.data.toList.length = dataWidth f.start f.lengthField ∧
        TimeField f.start f.parts.time f.timestamp ∧
        f.seq.toNat = f.lengthField.toNat / 128 ∧
        (f.isResponse = true ↔ f.start = 0x82 ∧ f.command = .userInterface) := by
  constructor
  · intro h
    exact ⟨h.address_field, h.data_length, h.time_field, h.seq_eq, h.isResponse_iff⟩
  · rintro ⟨haddress, hdata, htime, hseq, hresponse⟩
    exact ⟨hexField_writeHex_two .lower f.start, haddress, hexField_writeHex_two .lower f.lengthField,
      hexField_writeHex_two .lower f.command.code, hdata, htime,
      ⟨f.checksum, hexField_writeHex_two .upper f.checksum⟩, hseq, String.ofList_toList.symm,
      hresponse⟩

/-- What the parts have to be like for the frame to be read back, field by field. -/
theorem spell_parts_iff_fields {f : Frame} (hascii : Text.isAscii f.data.toList = true) :
    f.parts.Spell f.start f.lengthField f ↔
      AddressField f.start f.parts.line.length f.parts.address f.address ∧
        (if f.start = 0x83 then f.data.length ≤ 127
          else f.data.length % 2 = 0 ∧ f.data.length ≤ 254) ∧
        (∀ t ∈ f.timestamp, 2000 ≤ t.date.year ∧ t.date.year ≤ 2099) ∧
        f.seq ≤ 1 ∧ (f.isResponse = true ↔ f.start = 0x82 ∧ f.command = .userInterface) := by
  rw [spell_parts_self_iff, length_eq_dataWidth_iff hascii, timeField_parts_iff, seq_eq_iff]

/-- An answer is read back if it has no time, and an address exactly if the length of its line says so. -/
theorem spell_iff_of_response {f : Frame} (hascii : Text.isAscii f.data.toList = true)
    (hresponse : f.isResponse = true) : f.parts.Spell f.start f.lengthField f ↔ f.Faithful := by
  rw [spell_parts_iff_fields hascii, Faithful]
  cases htime : f.timestamp with
  | some t =>
    have hstart : f.start = 0x86 := by simp [start_eq, hresponse, htime]
    simp [hstart, hresponse]
  | none =>
    have hstart : f.start = 0x82 := by simp [start_eq, hresponse, htime]
    have hline := length_line_parts f
    rw [length_addressField, hstart, htime] at hline
    cases haddress : f.address with
    | none =>
      have haddr := addressField_parts_of_none haddress
      rw [haddress, hstart] at haddr
      rw [haddress] at hline
      rw [hstart, haddr, hline]
      simp [hascii, hresponse]
      grind
    | some a =>
      have haddr := addressField_parts_of_some haddress
      rw [haddress, hstart] at haddr
      rw [haddress] at hline
      rw [hstart, haddr, hline]
      simp [hascii, hresponse]
      grind

/-- A frame with an address that is no answer is read back if its fields hold its address and its length. -/
theorem spell_iff_of_request {f : Frame} {a : UInt8} (hascii : Text.isAscii f.data.toList = true)
    (hresponse : f.isResponse = false) (haddress : f.address = some a) :
    f.parts.Spell f.start f.lengthField f ↔ f.Faithful := by
  have haddr := addressField_parts_of_some haddress
  rw [spell_parts_iff_fields hascii, Faithful, haddr]
  cases htime : f.timestamp with
  | none =>
    have hstart : f.start = 0x83 := by simp [start_eq, hresponse, haddress, htime]
    simp [hascii, hresponse, hstart, haddress]
    grind
  | some t =>
    have hstart : f.start = 0x87 := by simp [start_eq, hresponse, haddress, htime]
    simp [hascii, hresponse, hstart]
    grind

/-- A frame without an address that is no answer must not look like an answer that has one. -/
theorem spell_iff_of_report {f : Frame} (hascii : Text.isAscii f.data.toList = true)
    (hresponse : f.isResponse = false) (haddress : f.address = none) :
    f.parts.Spell f.start f.lengthField f ↔ f.Faithful := by
  have haddr := addressField_parts_of_none haddress
  have hcommand : f.command ≠ .userInterface ↔ f.command = .systemStatus :=
    FrameCommand.ne_userInterface_iff
  rw [spell_parts_iff_fields hascii, Faithful, haddr]
  cases htime : f.timestamp with
  | none =>
    have hstart : f.start = 0x82 := by simp [start_eq, haddress, htime]
    have hline := length_line_parts f
    rw [length_addressField, hstart, htime, haddress] at hline
    rw [hline]
    simp [hascii, hresponse, hstart, haddress]
    grind
  | some t =>
    have hstart : f.start = 0x86 := by simp [start_eq, haddress, htime]
    simp [hascii, hresponse, hstart]
    grind

/-- The parts that are written for a frame spell the frame itself exactly if it is faithful. -/
theorem spell_iff_faithful (f : Frame) :
    Text.isAscii f.data.toList = true ∧ f.parts.Spell f.start f.lengthField f ↔ f.Faithful := by
  have hself : f.Faithful → Text.isAscii f.data.toList = true := And.left
  rw [← and_iff_right_of_imp hself]
  refine and_congr_right fun hascii => ?_
  cases hresponse : f.isResponse with
  | true => exact spell_iff_of_response hascii hresponse
  | false =>
    cases haddress : f.address with
    | some a => exact spell_iff_of_request hascii hresponse haddress
    | none => exact spell_iff_of_report hascii hresponse haddress

theorem decode_encode_of_faithful {f : Frame} (h : f.Faithful) : decode f.encode = .ok f :=
  (decode_encode_iff_spell rfl).mpr ((spell_iff_faithful f).mpr h)

/-- Without an address, a line does not show whether it is an answer. -/
theorem encode_of_address_none {f : Frame} (h : f.address = none) (isResponse : Bool) :
    ({ f with isResponse } : Frame).encode = f.encode := by
  cases f
  subst h
  rfl

/-- A frame is read back from its line as it was exactly if it is faithful. -/
theorem decode_encode_eq_ok_iff (f : Frame) : decode f.encode = .ok f ↔ f.Faithful := by
  rw [decode_encode_iff_spell rfl, spell_iff_faithful]

/-- An answer without an address that carries eight characters is taken for one with an address. -/
example : decode (Frame.mk none 0 .userInterface "00000000" none true).encode =
    .error (.unknownCommand 0x00) := by
  cbv

end Frame

end AlarmPanel
