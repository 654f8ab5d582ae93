import AlarmPanel.Proofs.Frame.Fields

/-!
# The grammar of lines

A line is a start byte, an address, a length byte, the code of a command, data, a time and a checksum,
each of a width that the fields before it fix; whether there is an address may also hang on the length of
the whole line. `LineParts.Spell` says which parts spell a frame, and `Frame.decode_eq_ok_iff` that
reading accepts exactly the lines of the grammar. Where reading fails, the error tells an unknown command
from every other fault (`Frame.decode_eq_unknownCommand_iff`, `Frame.decode_eq_error`).
-/

namespace AlarmPanel

/-! ## Lines and their parts -/

/-- The parts of a line, in their order. -/
structure LineParts where
  start : List Char
  address : List Char
  length : List Char
  command : List Char
  data : List Char
  time : List Char
  checksum : List Char

/-- The address of a line. There is none unless the start byte calls for it or the line is an answer of
sixteen characters; it has one digit in a request, else two. -/
def AddressField (start : UInt8) (lineLength : Nat) (field : List Char) (address : Option UInt8) :
    Prop :=
  if start.toNat % 2 = 1 ∨ (start = 0x82 ∧ lineLength = 16) then
    ∃ a, address = some a ∧ HexField (if start = 0x83 then 1 else 2) field a
  else field = [] ∧ address = none

/-- The time of a line, which is there if bit 2 of the start byte is set. -/
def TimeField (start : UInt8) (field : List Char) (time : Option Timestamp) : Prop :=
  if start.toNat.testBit 2 = true then
    ∃ t, time = some t ∧ field.length = 12 ∧ readTimestamp field = .ok t
  else field = [] ∧ time = none

/-- How many characters of data the length byte announces: it counts characters in a request, else
bytes of two digits. -/
def dataWidth (start length : UInt8) : Nat :=
  if start = 0x83 then length.toNat % 128 else 2 * (length.toNat % 128)

namespace LineParts

def line (p : LineParts) : List Char :=
  p.start ++ p.address ++ p.length ++ p.command ++ p.data ++ p.time ++ p.checksum

/-- The parts spell the frame, with this start byte and this length byte. -/
structure Spell (p : LineParts) (start length : UInt8) (f : Frame) : Prop where
  start_field : HexField 2 p.start start
  address_field : AddressField start p.line.length p.address f.address
  length_field : HexField 2 p.length length
  command_field : HexField 2 p.command f.command.code
  data_length : p.data.length = dataWidth start length
  time_field : TimeField start p.time f.timestamp
  /-- Any two digits will do. -/
  checksum_field : ∃ sum, HexField 2 p.checksum sum
  seq_eq : f.seq.toNat = length.toNat / 128
  data_eq : f.data = String.ofList p.data
  isResponse_iff : f.isResponse = true ↔ start = 0x82 ∧ f.command = .userInterface

end LineParts

namespace Frame

/-- The line spells the frame. -/
def SpelledBy (f : Frame) (line : List Char) : Prop :=
  ∃ (p : LineParts) (start length : UInt8), p.line = line ∧ p.Spell start length f

/-- The line is well formed up to the code of its command, and no command has that code. -/
def HasUnknownCommand (line : List Char) (code : UInt8) : Prop :=
  ∃ (s a n c rest : List Char) (start length : UInt8) (address : Option UInt8),
    line = s ++ a ++ n ++ c ++ rest ∧ HexField 2 s start ∧
      AddressField start line.length a address ∧ HexField 2 n length ∧ HexField 2 c code ∧
      code ≠ 0x60 ∧ code ≠ 0x61

/-! ## Reading follows the grammar -/

theorem takeAddress_eq_ok_iff {start : UInt8} {lineLength : Nat} {line rest : List Char}
    {address : Option UInt8} :
    takeAddress start lineLength line = .ok (address, rest) ↔
      ∃ field, line = field ++ rest ∧ AddressField start lineLength field address := by
  have hwidth : 1 ≤ (if start = 0x83 then 1 else 2) ∧ (if start = 0x83 then 1 else 2) ≤ 2 := by
    split <;> decide
  simp only [takeAddress, AddressField, StartByte.isRequest_iff, ← StartByte.hasAddress_iff]
  split
  · simp only [bind_eq_ok_iff, Prod.exists, takeHexField_eq_ok_iff hwidth, pure_eq_ok_iff,
      Prod.mk.injEq]
    constructor
    · rintro ⟨a, rest', ⟨field, rfl, ha⟩, rfl, rfl⟩
      exact ⟨field, rfl, a, rfl, ha⟩
    · rintro ⟨field, rfl, a, rfl, ha⟩
      exact ⟨a, rest, ⟨field, rfl, ha⟩, rfl, rfl⟩
  · simp only [Except.ok.injEq, Prod.mk.injEq]
    constructor
    · rintro ⟨rfl, rfl⟩
      exact ⟨[], rfl, rfl, rfl⟩
    · rintro ⟨field, rfl, rfl, rfl⟩
      exact ⟨rfl, rfl⟩

theorem takeTimestamp_eq_ok_iff {start : UInt8} {line rest : List Char} {time : Option Timestamp} :
    takeTimestamp start line = .ok (time, rest) ↔
      ∃ field, line = field ++ rest ∧ TimeField start field time := by
  simp only [takeTimestamp, TimeField, ← StartByte.hasTimestamp_iff]
  split
  · simp only [bind_eq_ok_iff, Prod.exists, takeField_eq_ok_iff, pure_eq_ok_iff, Prod.mk.injEq]
    constructor
    · rintro ⟨field, rest', ⟨rfl, hlen⟩, t, ht, rfl, rfl⟩
      exact ⟨field, rfl, t, rfl, hlen, ht⟩
    · rintro ⟨field, rfl, t, rfl, hlen, ht⟩
      exact ⟨field, rest, ⟨rfl, hlen⟩, t, ht, rfl, rfl⟩
  · simp only [Except.ok.injEq, Prod.mk.injEq]
    constructor
    · rintro ⟨rfl, rfl⟩
      exact ⟨[], rfl, rfl, rfl⟩
    · rintro ⟨field, rfl, rfl, rfl⟩
      exact ⟨rfl, rfl⟩

theorem takeAddress_failsByFormat (start : UInt8) (lineLength : Nat) (line : List Char) :
    FailsByFormat (takeAddress start lineLength line) := by
  unfold takeAddress
  split
  · exact (takeHexField_failsByFormat _ line).bind fun ⟨a, rest⟩ => .ok _
  · exact .ok _

theorem takeTimestamp_failsByFormat (start : UInt8) (line : List Char) :
    FailsByFormat (takeTimestamp start line) := by
  unfold takeTimestamp
  split
  · refine (takeField_failsByFormat 12 line).bind fun ⟨field, rest⟩ => ?_
    exact (readTimestamp_failsByFormat field).bind fun t => .ok _
  · exact .ok _

theorem decodeFields_eq_ok_iff {line : List Char} {f : Frame} :
    decodeFields line = .ok f ↔ f.SpelledBy line := by
  simp only [decodeFields, bind_eq_ok_iff, Prod.exists, takeHexField_eq_ok_iff (n := 2) (by decide),
    takeAddress_eq_ok_iff, FrameCommand.ofCode_eq_ok_iff, takeField_eq_ok_iff,
    takeTimestamp_eq_ok_iff]
  constructor
  · rintro ⟨start, line₁, ⟨s, hline, hs⟩, address, line₂, ⟨a, rfl, ha⟩, length, line₃, ⟨n, rfl, hn⟩,
      code, line₄, ⟨c, rfl, hc⟩, command, rfl, data, line₅, ⟨rfl, hdata⟩, time, line₆, ⟨t, rfl, ht⟩,
      sum, line₇, ⟨k, rfl, hk⟩, hend⟩
    split at hend
    · next hempty =>
      obtain rfl := List.isEmpty_iff.mp hempty
      obtain rfl := pure_eq_ok_iff.mp hend
      have hparts : (⟨s, a, n, c, data, t, k⟩ : LineParts).line = line := by
        rw [hline]
        simp [LineParts.line]
      refine ⟨⟨s, a, n, c, data, t, k⟩, start, length, hparts, hs, ?_, hn, hc, ?_, ht, ⟨sum, hk⟩,
        toNat_shiftRight_lengthBits length, rfl, ?_⟩
      · rwa [hparts]
      · rw [hdata]
        simp only [StartByte.isRequest_iff, toNat_and_lengthBits, dataWidth]
      · simp [StartByte.isResponse_iff]
    · cases hend
  · rintro ⟨p, start, length, rfl, h⟩
    obtain ⟨sum, hsum⟩ := h.checksum_field
    refine ⟨start, _, ⟨p.start, ?_, h.start_field⟩, f.address, _, ⟨p.address, rfl, h.address_field⟩,
      length, _, ⟨p.length, rfl, h.length_field⟩, f.command.code, _,
      ⟨p.command, rfl, h.command_field⟩, f.command, rfl, p.data, _, ⟨rfl, ?_⟩, f.timestamp, _,
      ⟨p.time, rfl, h.time_field⟩, sum, [], ⟨p.checksum, rfl, hsum⟩, ?_⟩
    · simp [LineParts.line]
    · rw [h.data_length]
      simp only [StartByte.isRequest_iff, toNat_and_lengthBits, dataWidth]
    · have hseq : length >>> 7 = f.seq := by
        rw [← UInt8.toNat_inj, h.seq_eq, toNat_shiftRight_lengthBits]
      have hresp : (StartByte.isResponse start && f.command == .userInterface) = f.isResponse := by
        rw [Bool.eq_iff_iff, h.isResponse_iff]
        simp [StartByte.isResponse_iff]
      rw [if_pos List.isEmpty_nil, pure_eq_ok_iff, hseq, hresp, ← h.data_eq]

/-- Reading accepts exactly the ASCII lines of the grammar, and gives the frame that they spell. -/
theorem decode_eq_ok_iff {line : String} {f : Frame} :
    decode line = .ok f ↔ Text.isAscii line.toList = true ∧ f.SpelledBy line.toList := by
  unfold decode
  split
  · next hascii => rw [decodeFields_eq_ok_iff, hascii, eq_self_iff_true, true_and]
  · next hascii => simp [hascii]

/-! ## How reading fails -/

/-- The fields are read in order, so the first one at fault decides the error. -/
theorem decodeFields_eq_error {line : List Char} {e : Error} (h : decodeFields line = .error e) :
    (∃ code, e = .unknownCommand code ∧ HasUnknownCommand line code) ∨
      ∃ fault, e = .format fault := by
  obtain h | ⟨⟨start, line₁⟩, h₁, h⟩ := bind_eq_error_iff.mp h
  · exact .inr (takeHexField_failsByFormat _ _ e h)
  obtain h | ⟨⟨address, line₂⟩, h₂, h⟩ := bind_eq_error_iff.mp h
  · exact .inr (takeAddress_failsByFormat _ _ _ e h)
  obtain h | ⟨⟨length, line₃⟩, h₃, h⟩ := bind_eq_error_iff.mp h
  · exact .inr (takeHexField_failsByFormat _ _ e h)
  obtain h | ⟨⟨code, line₄⟩, h₄, h⟩ := bind_eq_error_iff.mp h
  · exact .inr (takeHexField_failsByFormat _ _ e h)
  obtain hcode | ⟨command, -, h⟩ := bind_eq_error_iff.mp h
  · obtain ⟨s, hline, hs⟩ := (takeHexField_eq_ok_iff (by decide)).mp h₁
    obtain ⟨a, rfl, ha⟩ := takeAddress_eq_ok_iff.mp h₂
    obtain ⟨n, rfl, hn⟩ := (takeHexField_eq_ok_iff (by decide)).mp h₃
    obtain ⟨c, rfl, hc⟩ := (takeHexField_eq_ok_iff (by decide)).mp h₄
    obtain ⟨rfl, h60, h61⟩ := FrameCommand.ofCode_eq_error_iff.mp hcode
    refine .inl ⟨code, rfl, s, a, n, c, line₄, start, length, address, ?_, hs, ha, hn, hc, h60, h61⟩
    rw [hline]
    simp
  -- Behind the command only the format can be at fault.
  obtain h | ⟨⟨data, line₅⟩, -, h⟩ := bind_eq_error_iff.mp h
  · exact .inr (takeField_failsByFormat _ _ e h)
  obtain h | ⟨⟨time, line₆⟩, -, h⟩ := bind_eq_error_iff.mp h
  · exact .inr (takeTimestamp_failsByFormat _ _ e h)
  obtain h | ⟨⟨sum, line₇⟩, -, h⟩ := bind_eq_error_iff.mp h
  · exact .inr (takeHexField_failsByFormat _ _ e h)
  dsimp only at h
  split at h
  · cases h
  · exact .inr ⟨_, (Except.error.inj h).symm⟩

theorem decodeFields_of_hasUnknownCommand {line : List Char} {code : UInt8}
    (h : HasUnknownCommand line code) : decodeFields line = .error (.unknownCommand code) := by
  obtain ⟨s, a, n, c, rest, start, length, address, hline, hs, ha, hn, hc, h60, h61⟩ := h
  have h₁ : takeHexField 2 line = .ok (start, a ++ (n ++ (c ++ rest))) := by
    refine (takeHexField_eq_ok_iff (by decide)).mpr ⟨s, ?_, hs⟩
    rw [hline]
    simp
  refine bind_eq_error_iff.mpr (.inr ⟨_, h₁, ?_⟩)
  refine bind_eq_error_iff.mpr (.inr ⟨_, takeAddress_eq_ok_iff.mpr ⟨a, rfl, ha⟩, ?_⟩)
  refine bind_eq_error_iff.mpr
    (.inr ⟨_, (takeHexField_eq_ok_iff (by decide)).mpr ⟨n, rfl, hn⟩, ?_⟩)
  refine bind_eq_error_iff.mpr
    (.inr ⟨_, (takeHexField_eq_ok_iff (by decide)).mpr ⟨c, rfl, hc⟩, ?_⟩)
  exact bind_eq_error_iff.mpr (.inl (FrameCommand.ofCode_eq_error_iff.mpr ⟨rfl, h60, h61⟩))

/-- An unknown command is blamed exactly if all that stands before it is well formed. -/
theorem decode_eq_unknownCommand_iff {line : String} {code : UInt8} :
    decode line = .error (.unknownCommand code) ↔
      Text.isAscii line.toList = true ∧ HasUnknownCommand line.toList code := by
  unfold decode
  split
  · next hascii =>
    rw [hascii, eq_self_iff_true, true_and]
    constructor
    · intro h
      obtain ⟨code', hcode, hunknown⟩ | ⟨fault, hfault⟩ := decodeFields_eq_error h
      · obtain rfl := Error.unknownCommand.inj hcode
        exact hunknown
      · cases hfault
    · exact decodeFields_of_hasUnknownCommand
  · next hascii => simp [hascii]

/-- All other faults are faults of the format. -/
theorem decode_eq_error {line : String} {e : Error} (h : decode line = .error e) :
    (∃ code, e = .unknownCommand code) ∨ ∃ fault, e = .format fault := by
  unfold decode at h
  split at h
  · obtain ⟨code, hcode, -⟩ | hfault := decodeFields_eq_error h
    · exact .inl ⟨code, hcode⟩
    · exact .inr hfault
  · exact .inr ⟨.notAscii, (Except.error.inj h).symm⟩

/-! ## The checksum is not compared -/

/-- Other digits in the place of the checksum spell the same frame. -/
theorem SpelledBy.of_checksum {f : Frame} {body k k' : List Char} {sum sum' : UInt8}
    (hk : HexField 2 k sum) (hk' : HexField 2 k' sum') (h : f.SpelledBy (body ++ k)) :
    f.SpelledBy (body ++ k') := by
  obtain ⟨p, start, length, hline, hp⟩ := h
  obtain ⟨_, hsum⟩ := hp.checksum_field
  obtain ⟨hbody, rfl⟩ := List.append_inj' hline (by rw [hsum.1, hk.1])
  have hline' : ({ p with checksum := k' } : LineParts).line = body ++ k' := by
    rw [← hbody]
    rfl
  have hlen : ({ p with checksum := k' } : LineParts).line.length = p.line.length := by
    rw [hline', hline, List.length_append, List.length_append, hk.1, hk'.1]
  refine ⟨{ p with checksum := k' }, start, length, hline', hp.start_field, ?_, hp.length_field,
    hp.command_field, hp.data_length, hp.time_field, ⟨sum', hk'⟩, hp.seq_eq, hp.data_eq,
    hp.isResponse_iff⟩
  rw [hlen]
  exact hp.address_field

/-- Other digits in the place of the checksum make no difference to reading. -/
theorem decode_of_checksum {f : Frame} {body k k' : List Char} {sum sum' : UInt8}
    (hk : HexField 2 k sum) (hk' : HexField 2 k' sum')
    (h : decode (String.ofList (body ++ k)) = .ok f) :
    decode (String.ofList (body ++ k')) = .ok f := by
  rw [decode_eq_ok_iff, String.toList_ofList, Text.isAscii_append, Bool.and_eq_true] at h ⊢
  exact ⟨⟨h.1.1, hk'.isAscii⟩, h.2.of_checksum hk hk'⟩

/-! ## The grammar as a whole -/

/-- Reading is exact. It accepts the ASCII lines of the grammar and no others, and gives the frame that a
line spells; the digits of the checksum may be any. It blames an unknown command exactly if the line is
well formed up to the code of a command that does not exist, and in all other failures the format. -/
theorem decode_follows_grammar (line : String) :
    (∀ f, decode line = .ok f ↔ Text.isAscii line.toList = true ∧ f.SpelledBy line.toList) ∧
      (∀ f body k k' sum sum', line = String.ofList (body ++ k) → HexField 2 k sum →
        HexField 2 k' sum' → decode line = .ok f → decode (String.ofList (body ++ k')) = .ok f) ∧
      (∀ code, decode line = .error (.unknownCommand code) ↔
        Text.isAscii line.toList = true ∧ HasUnknownCommand line.toList code) ∧
      ∀ e, decode line = .error e →
        (∃ code, e = .unknownCommand code) ∨ ∃ fault, e = .format fault := by
  refine ⟨fun f => decode_eq_ok_iff, ?_, fun code => decode_eq_unknownCommand_iff,
    fun e => decode_eq_error⟩
  rintro f body k k' sum sum' rfl hk hk' h
  exact decode_of_checksum hk hk' h

end Frame

end AlarmPanel
