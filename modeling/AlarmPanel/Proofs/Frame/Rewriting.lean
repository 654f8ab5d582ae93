import AlarmPanel.Proofs.Frame.RoundTrip
import AlarmPanel.Proofs.Frame.TimeNumbers

/-!
# Lines that are written again

Reading forgets the start byte, the length byte and the width of the address, and writing makes them anew from
what is left. For the start bytes that writing knows they come out as they were (`Frame.parts_eq_rewritten`), so
a line only loses its capitals, a minute 60 and a wrong checksum when it is read and written again. The one line
that does not come back is an answer's line of sixteen characters with the command of a report: its address is
found by its length alone, and writing calls for it in the start byte (`Frame.encode_of_decode`).
-/

namespace AlarmPanel

namespace LineParts

/-- The line up to the checksum. -/
def body (p : LineParts) : List Char := p.start ++ p.address ++ p.length ++ p.command ++ p.data ++ p.time

/-- The minute of the line's time, if it has one. -/
def minute (p : LineParts) : List Char := charPair p.time 4

/-- The parts with their numerals in lower case, the digits of this time, and the checksum made anew. The data
is left as it is. -/
def rewritten (p : LineParts) (time : Option Timestamp) : LineParts :=
  let start := p.start.map Char.toLower
  let address := p.address.map Char.toLower
  let length := p.length.map Char.toLower
  let command := p.command.map Char.toLower
  let digits := time.elim [] Timestamp.digits
  { start, address, length, command, data := p.data, time := digits
    checksum := Text.writeHex .upper 2
      (checksumOf (start ++ address ++ length ++ command ++ p.data ++ digits)).toNat }

/-- The numerals of the line have no capitals but in its checksum, its checksum is right, and its minute is not
60. -/
structure Canonical (p : LineParts) : Prop where
  start_eq : p.start.map Char.toLower = p.start
  address_eq : p.address.map Char.toLower = p.address
  length_eq : p.length.map Char.toLower = p.length
  command_eq : p.command.map Char.toLower = p.command
  minute_ne : p.minute ≠ ['6', '0']
  checksum_eq : p.checksum = Text.writeHex .upper 2 (checksumOf p.body).toNat

end LineParts

theorem AddressField.map_toLower {f : Frame} {n : Nat} {field : List Char}
    (h : AddressField f.start n field f.address) : field.map Char.toLower = f.addressField := by
  unfold AddressField at h
  split at h
  · obtain ⟨a, haddress, ha⟩ := h
    rw [ha.map_toLower, Frame.addressField, haddress]
    by_cases hstart : f.start = 0x83
    · -- One digit holds all of the address, so nothing of it is cut.
      rw [if_pos hstart] at ha ⊢
      have hlow : (a &&& 0x0f).toNat = a.toNat := by
        rw [toNat_and_lowDigit, Nat.mod_eq_of_lt ha.lt_sixteen]
      simp only [StartByte.isRequest_iff, if_pos hstart, hlow]
    · simp only [StartByte.isRequest_iff, if_neg hstart]
  · obtain ⟨rfl, haddress⟩ := h
    rw [Frame.addressField, haddress, List.map_nil]

/-- A time is written as it stood exactly if its minute was not 60. -/
theorem TimeField.digits_eq_iff {start : UInt8} {field : List Char} {time : Option Timestamp}
    (h : TimeField start field time) :
    time.elim [] Timestamp.digits = field ↔ charPair field 4 ≠ ['6', '0'] := by
  unfold TimeField at h
  split at h
  · obtain ⟨t, rfl, hread⟩ := h
    obtain ⟨n, hn, ht⟩ := readTimestamp_eq_ok_iff.mp hread
    exact hn.digits_eq_iff ht
  · obtain ⟨rfl, rfl⟩ := h
    exact iff_of_true rfl (by decide)

theorem AddressField.isSome_iff {start : UInt8} {n : Nat} {field : List Char} {address : Option UInt8}
    (h : AddressField start n field address) :
    address.isSome = true ↔ start.toNat % 2 = 1 ∨ (start = 0x82 ∧ n = 16) := by
  unfold AddressField at h
  split at h
  next hthere =>
    obtain ⟨a, rfl, -⟩ := h
    exact iff_of_true rfl hthere
  next hnone =>
    obtain ⟨-, rfl⟩ := h
    exact iff_of_false Bool.false_ne_true hnone

theorem TimeField.isSome_iff {start : UInt8} {field : List Char} {time : Option Timestamp}
    (h : TimeField start field time) : time.isSome = true ↔ start.toNat.testBit 2 = true := by
  unfold TimeField at h
  split at h
  next hthere =>
    obtain ⟨t, rfl, -⟩ := h
    exact iff_of_true rfl hthere
  next hnone =>
    obtain ⟨-, rfl⟩ := h
    exact iff_of_false Bool.false_ne_true hnone

namespace Frame

variable {f : Frame} {p : LineParts} {start length : UInt8}

/-! ## What reading forgets is made anew -/

/-- The length byte of the data that was read, and of the sequence number, is the one that stood there. -/
theorem lengthField_eq_of_spell (h : p.Spell start length f) (hascii : Text.isAscii f.data.toList = true)
    (hstart : f.start = start) : f.lengthField = length := by
  have hbytes : Text.byteLength f.data.toList = dataWidth start length := by
    rw [Text.byteLength_eq_length hascii, h.data_eq, String.toList_ofList, h.data_length]
  have hlen : f.length = length.toNat % 128 := by
    simp only [Frame.length, hbytes, StartByte.isRequest_iff, hstart, dataWidth]
    split <;> omega
  rw [← UInt8.toNat_inj, toNat_lengthField, hlen, h.seq_eq]
  have := length.toNat_lt
  omega

/-- The parts that are written for a frame are those that it was read from, written again. -/
theorem parts_eq_rewritten (h : p.Spell start length f) (hascii : Text.isAscii f.data.toList = true)
    (hstart : f.start = start) : f.parts = p.rewritten f.timestamp := by
  have hlength := lengthField_eq_of_spell h hascii hstart
  subst hstart hlength
  have hdata : f.data.toList = p.data := by rw [h.data_eq, String.toList_ofList]
  rw [LineParts.rewritten, h.start_field.map_toLower, h.address_field.map_toLower, h.length_field.map_toLower,
    h.command_field.map_toLower, ← hdata]
  rfl

/-- A start byte that writing knows is made again, unless only the length of the line told of an address that
writing calls for in the start byte. -/
theorem start_of_spell (h : p.Spell start length f)
    (hknown : start = 0x82 ∨ start = 0x83 ∨ start = 0x86 ∨ start = 0x87) :
    f.start = if start = 0x82 ∧ p.line.length = 16 ∧ f.command = .systemStatus then 0x83 else start := by
  have hresponse : f.isResponse = false ↔ ¬ (start = 0x82 ∧ f.command = .userInterface) := by
    rw [← h.isResponse_iff, Bool.not_eq_true]
  simp only [start_eq, h.address_field.isSome_iff, h.time_field.isSome_iff, hresponse]
  rcases hknown with rfl | rfl | rfl | rfl
  · by_cases hlen : p.line.length = 16 <;> cases f.command <;>
      simp [hlen, Nat.testBit_eq_decide_div_mod_eq]
  · simp [Nat.testBit_eq_decide_div_mod_eq]
  · simp [Nat.testBit_eq_decide_div_mod_eq]
  · simp [Nat.testBit_eq_decide_div_mod_eq]

/-- The parts stay as they are exactly if they are canonical. -/
theorem rewritten_eq_self_iff (h : p.Spell start length f) : p.rewritten f.timestamp = p ↔ p.Canonical := by
  have htime : f.timestamp.elim [] Timestamp.digits = p.time ↔ p.minute ≠ ['6', '0'] :=
    h.time_field.digits_eq_iff
  constructor
  · intro heq
    have hstart : p.start.map Char.toLower = p.start := congrArg LineParts.start heq
    have haddress : p.address.map Char.toLower = p.address := congrArg LineParts.address heq
    have hlength : p.length.map Char.toLower = p.length := congrArg LineParts.length heq
    have hcommand : p.command.map Char.toLower = p.command := congrArg LineParts.command heq
    have hdigits : f.timestamp.elim [] Timestamp.digits = p.time := congrArg LineParts.time heq
    have hchecksum := congrArg LineParts.checksum heq
    simp only [LineParts.rewritten, hstart, haddress, hlength, hcommand, hdigits] at hchecksum
    exact ⟨hstart, haddress, hlength, hcommand, htime.mp hdigits, hchecksum.symm⟩
  · intro hcanonical
    have hdigits := htime.mpr hcanonical.minute_ne
    have hchecksum := hcanonical.checksum_eq
    simp only [LineParts.rewritten, hcanonical.start_eq, hcanonical.address_eq, hcanonical.length_eq,
      hcanonical.command_eq, hdigits]
    rw [LineParts.body] at hchecksum
    rw [← hchecksum]

/-- A line that comes back has the parts that are written. -/
theorem encode_eq_iff {line : String} (hline : p.line = line.toList) (h : p.Spell start length f) :
    f.encode = line ↔ f.parts = p := by
  rw [← String.toList_inj, toList_encode, ← hline]
  exact ⟨fun heq => (eq_parts_of_line_eq h heq.symm rfl).1.symm, congrArg LineParts.line⟩

/-- A line that has been read, and begins with a byte that writing knows, is written again with its numerals in
lower case and a new checksum, and with its time as it was read, which is as it stood but for a minute 60. So
the line comes back exactly if it is canonical. Only a report's line of sixteen characters that begins as an
answer never comes back: it is written as a request. -/
theorem encode_of_decode {line : String} {f : Frame} (h : decode line = .ok f) :
    ∃ (p : LineParts) (start length : UInt8), p.line = line.toList ∧ p.Spell start length f ∧
      (start = 0x82 ∨ start = 0x83 ∨ start = 0x86 ∨ start = 0x87 →
        if start = 0x82 ∧ line.length = 16 ∧ f.command = .systemStatus then
          ['8', '3'] <+: f.encode.toList ∧ f.encode ≠ line
        else
          f.encode.toList = (p.rewritten f.timestamp).line ∧
            ((p.rewritten f.timestamp).time = p.time ↔ p.minute ≠ ['6', '0']) ∧
            (f.encode = line ↔ p.Canonical)) := by
  obtain ⟨hascii, p, start, length, hline, hspell⟩ := decode_eq_ok_iff.mp h
  refine ⟨p, start, length, hline, hspell, fun hknown => ?_⟩
  have hlen : p.line.length = line.length := by rw [hline, String.length_toList]
  have hstart := start_of_spell hspell hknown
  rw [hlen] at hstart
  have hdata : Text.isAscii f.data.toList = true := by
    rw [← hline, LineParts.line] at hascii
    simp only [Text.isAscii_append, Bool.and_eq_true] at hascii
    rw [hspell.data_eq, String.toList_ofList]
    exact hascii.1.1.2
  split
  next hexcept =>
    rw [if_pos hexcept] at hstart
    have hdigits : Text.writeHex .lower 2 (0x83 : UInt8).toNat = ['8', '3'] := by decide
    have hwritten : f.parts.start = ['8', '3'] := by
      rw [← hdigits, ← hstart]
      rfl
    constructor
    · rw [toList_encode, LineParts.line, hwritten]
      simp only [List.append_assoc, List.prefix_append]
    · rw [ne_eq, encode_eq_iff hline hspell]
      intro hparts
      have hfield := hspell.start_field
      rw [← hparts, hexcept.1] at hfield
      have hsame := hfield.unique (hexField_writeHex_two .lower f.start)
      rw [hstart] at hsame
      cases hsame
  next hexcept =>
    rw [if_neg hexcept] at hstart
    have hparts := parts_eq_rewritten hspell hdata hstart
    refine ⟨?_, hspell.time_field.digits_eq_iff, ?_⟩
    · rw [toList_encode, hparts]
    · rw [encode_eq_iff hline hspell, hparts, rewritten_eq_self_iff hspell]

/-- A report with capitals in its address, minute 60 and a wrong checksum is written again as a report of the
next hour. -/
theorem encode_of_decode_past_the_hour :
    let line := "870A036124000024010100600500"
    ∃ (f : Frame) (p : LineParts) (start length : UInt8), decode line = .ok f ∧
      f.encode = "870a0361240000240101010005C2" ∧ p.line = line.toList ∧ p.Spell start length f ∧
      (start = 0x82 ∨ start = 0x83 ∨ start = 0x86 ∨ start = 0x87 →
        if start = 0x82 ∧ line.length = 16 ∧ f.command = .systemStatus then
          ['8', '3'] <+: f.encode.toList ∧ f.encode ≠ line
        else
          f.encode.toList = (p.rewritten f.timestamp).line ∧
            ((p.rewritten f.timestamp).time = p.time ↔ p.minute ≠ ['6', '0']) ∧
            (f.encode = line ↔ p.Canonical)) := by
  intro line
  have hrun : (decode line).toOption.any (fun f => f.encode = "870a0361240000240101010005C2") := by
    decide +kernel
  obtain ⟨f, hf, hencode⟩ := (Option.any_eq_true _ _).mp hrun
  have hdecode : decode line = .ok f := toOption_eq_some_iff.mp hf
  obtain ⟨p, start, length, hp⟩ := encode_of_decode hdecode
  exact ⟨f, p, start, length, hdecode, of_decide_eq_true hencode, hp⟩

end Frame

end AlarmPanel
