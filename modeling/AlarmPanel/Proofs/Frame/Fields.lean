import AlarmPanel.Frame.Decode
import AlarmPanel.Proofs.Text.Bytes
import AlarmPanel.Proofs.Text.Numeral

/-!
# Fields of a line

The fields of a line are taken one after the other, and each step may fail. For every step there is one
statement of when it succeeds, which speaks of the characters alone (`takeHexField_eq_ok_iff`,
`takeField_eq_ok_iff`), and one of how it fails (`FailsByFormat`).
-/

namespace AlarmPanel

/-! ## Steps that may fail -/

section Steps

variable {ε α β : Type}

theorem bind_eq_ok_iff {x : Except ε α} {f : α → Except ε β} {b : β} :
    (x >>= f) = .ok b ↔ ∃ a, x = .ok a ∧ f a = .ok b := by
  cases x <;> simp [bind, Except.bind]

theorem bind_eq_error_iff {x : Except ε α} {f : α → Except ε β} {e : ε} :
    (x >>= f) = .error e ↔ x = .error e ∨ ∃ a, x = .ok a ∧ f a = .error e := by
  cases x <;> simp [bind, Except.bind]

theorem pure_eq_ok_iff {a b : α} : (pure a : Except ε α) = .ok b ↔ a = b := by
  simp [pure, Except.pure]

theorem map_eq_ok_iff {f : α → β} {x : Except ε α} {b : β} :
    (f <$> x) = .ok b ↔ ∃ a, x = .ok a ∧ f a = b := by
  cases x <;> simp [Functor.map, Except.map]

theorem toOption_eq_some_iff {x : Except ε α} {a : α} : x.toOption = some a ↔ x = .ok a := by
  cases x <;> simp [Except.toOption]

theorem length_of_mapM_eq_ok {f : α → Except ε β} {xs : List α} {ys : List β}
    (h : xs.mapM f = .ok ys) : ys.length = xs.length := by
  induction xs generalizing ys with
  | nil =>
    cases h
    rfl
  | cons x xs ih =>
    rw [List.mapM_cons] at h
    obtain ⟨y, -, h⟩ := bind_eq_ok_iff.mp h
    obtain ⟨zs, hzs, h⟩ := bind_eq_ok_iff.mp h
    cases h
    exact congrArg (· + 1) (ih hzs)

end Steps

/-- Whenever the computation fails, it blames the text that it reads. -/
def FailsByFormat {α : Type} (x : Except Error α) : Prop :=
  ∀ e, x = .error e → ∃ fault, e = .format fault

namespace FailsByFormat

variable {α β : Type}

theorem ok (a : α) : FailsByFormat (.ok a) := by
  intro e h
  cases h

theorem error (fault : FormatFault) : FailsByFormat (.error (.format fault) : Except Error α) := by
  intro e h
  exact ⟨fault, (Except.error.inj h).symm⟩

theorem bind {x : Except Error α} {f : α → Except Error β} (hx : FailsByFormat x)
    (hf : ∀ a, FailsByFormat (f a)) : FailsByFormat (x >>= f) := by
  intro e h
  obtain h | ⟨a, -, h⟩ := bind_eq_error_iff.mp h
  · exact hx e h
  · exact hf a e h

end FailsByFormat

/-! ## The bits of the start byte and of the length byte -/

namespace StartByte

/-- The address bit is the lowest one. -/
theorem hasAddress_iff {start : UInt8} {lineLength : Nat} :
    hasAddress start lineLength = true ↔
      start.toNat % 2 = 1 ∨ (start = 0x82 ∧ lineLength = 16) := by
  have hbit : (start &&& addressBit != 0) = true ↔ start.toNat % 2 = 1 := by
    rw [bne_iff_ne, ne_eq, ← UInt8.toNat_inj, UInt8.toNat_and]
    change ¬ start.toNat &&& 1 = 0 ↔ _
    rw [Nat.and_one_is_mod]
    omega
  simp only [hasAddress, Bool.or_eq_true, hbit, Bool.and_eq_true, beq_iff_eq, response,
    addressedResponseLength]

theorem hasTimestamp_iff {start : UInt8} :
    hasTimestamp start = true ↔ start.toNat.testBit 2 = true := by
  have hall : ∀ n < 256, hasTimestamp (UInt8.ofNat n) = (UInt8.ofNat n).toNat.testBit 2 := by
    decide +kernel
  have hstart := hall start.toNat start.toNat_lt
  rw [UInt8.ofNat_toNat] at hstart
  rw [hstart]

theorem isRequest_iff {start : UInt8} : isRequest start = true ↔ start = 0x83 := beq_iff_eq

theorem isResponse_iff {start : UInt8} : isResponse start = true ↔ start = 0x82 := beq_iff_eq

end StartByte

theorem toNat_ofNat_byte {n : Nat} (h : n < 256) : (UInt8.ofNat n).toNat = n :=
  UInt8.toNat_ofNat_of_lt' h

theorem toNat_and_lengthBits (b : UInt8) : (b &&& 0x7f).toNat = b.toNat % 128 := by
  rw [UInt8.toNat_and]
  exact Nat.and_two_pow_sub_one_eq_mod b.toNat 7

theorem toNat_shiftRight_lengthBits (b : UInt8) : (b >>> 7).toNat = b.toNat / 128 := by
  rw [UInt8.toNat_shiftRight]
  exact Nat.shiftRight_eq_div_pow b.toNat 7

theorem toNat_and_lowDigit (b : UInt8) : (b &&& 0x0f).toNat = b.toNat % 16 := by
  rw [UInt8.toNat_and]
  exact Nat.and_two_pow_sub_one_eq_mod b.toNat 4

/-! ## Commands -/

namespace FrameCommand

theorem ofCode?_code (command : FrameCommand) : ofCode? command.code = some command := by
  cases command <;> rfl

theorem code_of_ofCode? {code : UInt8} {command : FrameCommand} (h : ofCode? code = some command) :
    command.code = code := by
  unfold ofCode? at h
  split at h
  · next h60 =>
    obtain rfl := Option.some.inj h
    exact h60.symm
  split at h
  · next h61 =>
    obtain rfl := Option.some.inj h
    exact h61.symm
  · cases h

theorem ofCode?_eq_none_iff {code : UInt8} : ofCode? code = none ↔ code ≠ 0x60 ∧ code ≠ 0x61 := by
  unfold ofCode?
  split
  · next h60 => simp [h60]
  split
  · next h61 => simp [h61]
  · next h60 h61 => simp [h60, h61]

theorem ofCode_eq_ok_iff {code : UInt8} {command : FrameCommand} :
    ofCode code = .ok command ↔ command.code = code := by
  constructor
  · intro h
    unfold ofCode at h
    split at h
    · next found hfound =>
      obtain rfl := Except.ok.inj h
      exact code_of_ofCode? hfound
    · cases h
  · rintro rfl
    rw [ofCode, ofCode?_code]

theorem ofCode_eq_error_iff {code : UInt8} {e : Error} :
    ofCode code = .error e ↔ e = .unknownCommand code ∧ code ≠ 0x60 ∧ code ≠ 0x61 := by
  rw [← ofCode?_eq_none_iff, ofCode]
  cases ofCode? code with
  | some command => simp
  | none => simp [eq_comm]

theorem ne_userInterface_iff {command : FrameCommand} :
    command ≠ .userInterface ↔ command = .systemStatus := by
  cases command <;> decide

end FrameCommand

/-! ## Fields -/

/-- The characters are a field of so many hexadecimal digits, and the value is the number it spells. -/
def HexField (width : Nat) (field : List Char) (value : UInt8) : Prop :=
  field.length = width ∧ Text.Spells 16 Text.IsHexDigit field value.toNat

theorem HexField.unique {v w : Nat} {field : List Char} {a b : UInt8} (ha : HexField v field a)
    (hb : HexField w field b) : a = b :=
  UInt8.toNat_inj.mp (ha.2.unique Text.hexValue?_eq_some_iff hb.2)

/-- A field of one digit holds a value below sixteen. -/
theorem HexField.lt_sixteen {field : List Char} {a : UInt8} (h : HexField 1 field a) :
    a.toNat < 16 := by
  have hlt := h.2.lt_pow fun c d hd => hd.1
  rwa [h.1] at hlt

theorem HexField.le_fifteen {field : List Char} {a : UInt8} (h : HexField 1 field a) : a ≤ 15 :=
  UInt8.le_iff_toNat_le.mpr (Nat.le_of_lt_succ h.lt_sixteen)

theorem HexField.isAscii {width : Nat} {field : List Char} {a : UInt8} (h : HexField width field a) :
    Text.isAscii field = true :=
  h.2.isAscii

theorem hexField_writeHex (letters : Text.LetterCase) {width : Nat} {a : UInt8}
    (h : a.toNat < 16 ^ width) : HexField width (Text.writeHex letters width a.toNat) a :=
  ⟨Text.length_writeHex letters width a.toNat, Text.spells_writeHex letters h⟩

/-- What has two digits spells a byte. -/
theorem hexField_writeHex_two (letters : Text.LetterCase) (a : UInt8) :
    HexField 2 (Text.writeHex letters 2 a.toNat) a :=
  hexField_writeHex letters a.toNat_lt

theorem readHexField_eq_ok_iff {field : List Char} {a : UInt8} (hlen : field.length ≤ 2) :
    readHexField field = .ok a ↔ field ≠ [] ∧ Text.Spells 16 Text.IsHexDigit field a.toNat := by
  unfold readHexField
  constructor
  · intro h
    split at h
    · next n hn =>
      obtain rfl := Except.ok.inj h
      obtain ⟨hne, hspells⟩ := Text.readHex?_eq_some_iff.mp hn
      have hlt : n < 16 ^ field.length := hspells.lt_pow fun c d hd => hd.1
      have hpow : 16 ^ field.length ≤ 16 ^ 2 := Nat.pow_le_pow_right (by decide) hlen
      rw [toNat_ofNat_byte (by omega)]
      exact ⟨hne, hspells⟩
    · cases h
  · intro h
    rw [Text.readHex?_eq_some_iff.mpr h]
    simp

theorem HexField.read {width : Nat} {field : List Char} {a : UInt8} (h : HexField width field a)
    (hwidth : 1 ≤ width ∧ width ≤ 2) : readHexField field = .ok a := by
  obtain ⟨hlen, hspells⟩ := h
  have hne : field ≠ [] := List.ne_nil_of_length_pos (by omega)
  exact (readHexField_eq_ok_iff (by omega)).mpr ⟨hne, hspells⟩

/-- In lower case a field is what is written for its value. -/
theorem HexField.map_toLower {width : Nat} {field : List Char} {a : UInt8} (h : HexField width field a) :
    field.map Char.toLower = Text.writeHex .lower width a.toNat := by
  rw [h.2.map_toLower, h.1]

/-- A numeral of hexadecimal digits that has a value below 256 is a field. -/
theorem exists_hexField_of_spells {field : List Char} {n : Nat} (hlen : field.length ≤ 2)
    (h : Text.Spells 16 Text.IsHexDigit field n) :
    ∃ a : UInt8, HexField field.length field a ∧ a.toNat = n := by
  have hlt : n < 16 ^ field.length := h.lt_pow fun c d hd => hd.1
  have hpow : 16 ^ field.length ≤ 16 ^ 2 := Nat.pow_le_pow_right (by decide) hlen
  have ha : (UInt8.ofNat n).toNat = n := toNat_ofNat_byte (by omega)
  refine ⟨UInt8.ofNat n, ⟨rfl, ?_⟩, ha⟩
  rwa [ha]

/-- A numeral is made of two fields exactly if it has as many digits as both together. -/
theorem length_and_spells_iff {v w n : Nat} {digits : List Char} (hv : v ≤ 2) (hw : w ≤ 2) :
    digits.length = v + w ∧ Text.Spells 16 Text.IsHexDigit digits n ↔
      ∃ front back high low, digits = front ++ back ∧ HexField v front high ∧ HexField w back low ∧
        n = 16 ^ w * high.toNat + low.toNat := by
  constructor
  · rintro ⟨hlen, hspells⟩
    have hfront : (digits.take v).length = v := by
      rw [List.length_take]
      omega
    have hback : (digits.drop v).length = w := by
      rw [List.length_drop]
      omega
    rw [← List.take_append_drop v digits] at hspells
    obtain ⟨m, k, hm, hk, rfl⟩ := hspells.split
    obtain ⟨high, hhigh, rfl⟩ := exists_hexField_of_spells (by omega) hm
    obtain ⟨low, hlow, rfl⟩ := exists_hexField_of_spells (by omega) hk
    rw [hfront] at hhigh
    rw [hback] at hlow
    exact ⟨_, _, high, low, (List.take_append_drop v digits).symm, hhigh, hlow, by rw [hback]⟩
  · rintro ⟨front, back, high, low, rfl, hfront, hback, rfl⟩
    have hspells := hfront.2.append hback.2
    rw [hback.1] at hspells
    exact ⟨by rw [List.length_append, hfront.1, hback.1], hspells⟩

/-- A byte of two digits is the field of both. -/
theorem hexField_two_iff {field : List Char} {a : UInt8} :
    HexField 2 field a ↔
      ∃ front back high low, field = front ++ back ∧ HexField 1 front high ∧ HexField 1 back low ∧
        a.toNat = 16 * high.toNat + low.toNat :=
  length_and_spells_iff (v := 1) (w := 1) (by decide) (by decide)

theorem HexField.byteLength_eq {width : Nat} {field : List Char} {a : UInt8} (h : HexField width field a) :
    Text.byteLength field = width :=
  (Text.byteLength_eq_length h.isAscii).trans h.1

theorem HexField.byteLength_append {before field : List Char} {m n : Nat} {a : UInt8}
    (hfield : HexField n field a) (hbefore : Text.byteLength before = m) :
    Text.byteLength (before ++ field) = m + n := by
  rw [Text.byteLength_append, hbefore, hfield.byteLength_eq]

/-- The characters are a field of two decimal digits, and the value is the number it spells. -/
def DecField (field : List Char) (value : UInt8) : Prop :=
  field.length = 2 ∧ Text.Spells 10 Text.IsDecDigit field value.toNat

theorem DecField.lt_hundred {field : List Char} {a : UInt8} (h : DecField field a) : a.toNat < 100 := by
  have hlt := h.2.lt_pow fun c d hd => hd.1
  rwa [h.1] at hlt

theorem DecField.eq_writeDec {field : List Char} {a : UInt8} (h : DecField field a) :
    field = Text.writeDec 2 a.toNat := by
  have heq := h.2.eq_writeDec
  rwa [h.1] at heq

theorem decField_writeDec {a : UInt8} (h : a.toNat < 100) : DecField (Text.writeDec 2 a.toNat) a :=
  ⟨Text.length_writeDec 2 a.toNat, Text.spells_writeDec h⟩

theorem DecField.isAscii {field : List Char} {a : UInt8} (h : DecField field a) :
    Text.isAscii field = true := by
  rw [h.eq_writeDec, Text.isAscii_writeDec]

theorem DecField.byteLength_eq {field : List Char} {a : UInt8} (h : DecField field a) :
    Text.byteLength field = 2 :=
  (Text.byteLength_eq_length h.isAscii).trans h.1

theorem readDecField_eq_ok_iff {field : List Char} {a : UInt8} (hlen : field.length ≤ 2) :
    readDecField field = .ok a ↔ field ≠ [] ∧ Text.Spells 10 Text.IsDecDigit field a.toNat := by
  unfold readDecField
  constructor
  · intro h
    split at h
    · next n hn =>
      obtain rfl := Except.ok.inj h
      obtain ⟨hne, hspells⟩ := Text.readDec?_eq_some_iff.mp hn
      have hlt : n < 10 ^ field.length := hspells.lt_pow fun c d hd => hd.1
      have hpow : 10 ^ field.length ≤ 10 ^ 2 := Nat.pow_le_pow_right (by decide) hlen
      rw [toNat_ofNat_byte (by omega)]
      exact ⟨hne, hspells⟩
    · cases h
  · intro h
    rw [Text.readDec?_eq_some_iff.mpr h]
    simp

theorem DecField.read {field : List Char} {a : UInt8} (h : DecField field a) : readDecField field = .ok a := by
  obtain ⟨hlen, hspells⟩ := h
  have hne : field ≠ [] := List.ne_nil_of_length_pos (by omega)
  exact (readDecField_eq_ok_iff (by omega)).mpr ⟨hne, hspells⟩

/-! A field may also be cut out by its bytes. Then it is a numeral only if its bytes are characters. -/

theorem readHexField_eq_ok_iff_of_byteLength {width : Nat} {field : List Char} {a : UInt8}
    (hwidth : 1 ≤ width ∧ width ≤ 2) (hlen : Text.byteLength field = width) :
    readHexField field = .ok a ↔ HexField width field a := by
  have hle := Text.length_le_byteLength field
  refine ⟨fun h => ?_, fun h => h.read hwidth⟩
  obtain ⟨-, hspells⟩ := (readHexField_eq_ok_iff (by omega)).mp h
  exact ⟨(Text.byteLength_eq_length hspells.isAscii).symm.trans hlen, hspells⟩

theorem readDecField_eq_ok_iff_of_byteLength {field : List Char} {a : UInt8}
    (hlen : Text.byteLength field = 2) : readDecField field = .ok a ↔ DecField field a := by
  have hle := Text.length_le_byteLength field
  refine ⟨fun h => ?_, DecField.read⟩
  obtain ⟨-, hspells⟩ := (readDecField_eq_ok_iff (by omega)).mp h
  have hascii : Text.isAscii field = true := by
    rw [hspells.eq_writeDec, Text.isAscii_writeDec]
  exact ⟨(Text.byteLength_eq_length hascii).symm.trans hlen, hspells⟩

theorem readHexField_failsByFormat (field : List Char) : FailsByFormat (readHexField field) := by
  unfold readHexField
  split
  · exact .ok _
  · exact .error _

theorem readDecField_failsByFormat (field : List Char) : FailsByFormat (readDecField field) := by
  unfold readDecField
  split
  · exact .ok _
  · exact .error _

/-- Taking a field splits the line behind its characters. -/
theorem takeField_eq_ok_iff {n : Nat} {line field rest : List Char} :
    takeField n line = .ok (field, rest) ↔ line = field ++ rest ∧ field.length = n := by
  unfold takeField
  constructor
  · intro h
    split at h
    · next hle =>
      obtain ⟨rfl, rfl⟩ := Prod.mk.inj (Except.ok.inj h)
      exact ⟨(List.take_append_drop n line).symm, List.length_take_of_le hle⟩
    · cases h
  · rintro ⟨rfl, rfl⟩
    rw [if_pos (by simp), List.take_left, List.drop_left]

theorem takeField_failsByFormat (n : Nat) (line : List Char) : FailsByFormat (takeField n line) := by
  unfold takeField
  split
  · exact .ok _
  · exact .error _

theorem takeHexField_eq_ok_iff {n : Nat} (hn : 1 ≤ n ∧ n ≤ 2) {line rest : List Char} {a : UInt8} :
    takeHexField n line = .ok (a, rest) ↔ ∃ field, line = field ++ rest ∧ HexField n field a := by
  simp only [takeHexField, bind_eq_ok_iff, Prod.exists, takeField_eq_ok_iff, pure_eq_ok_iff,
    Prod.mk.injEq]
  constructor
  · rintro ⟨field, rest', ⟨rfl, rfl⟩, value, hvalue, rfl, rfl⟩
    exact ⟨field, rfl, rfl, ((readHexField_eq_ok_iff hn.2).mp hvalue).2⟩
  · rintro ⟨field, rfl, hfield⟩
    exact ⟨field, rest, ⟨rfl, hfield.1⟩, a, hfield.read hn, rfl, rfl⟩

theorem takeHexField_failsByFormat (n : Nat) (line : List Char) :
    FailsByFormat (takeHexField n line) := by
  refine (takeField_failsByFormat n line).bind fun ⟨field, rest⟩ => ?_
  exact (readHexField_failsByFormat field).bind fun a => .ok _

/-- A field that is no time fails by its format, whichever of its numbers is at fault. -/
theorem readTimestamp_failsByFormat (field : List Char) : FailsByFormat (readTimestamp field) := by
  have hnumber (i : Nat) := readDecField_failsByFormat ((field.drop (2 * i)).take 2)
  refine (hnumber 0).bind fun year => (hnumber 1).bind fun month => (hnumber 2).bind fun day =>
    (hnumber 3).bind fun hour => (hnumber 4).bind fun minute => (hnumber 5).bind fun second => ?_
  dsimp only
  split
  · exact .error _
  · exact .ok _

end AlarmPanel
