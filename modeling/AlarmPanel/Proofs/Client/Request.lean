import AlarmPanel.Client.Request
import AlarmPanel.Proofs.Text.Numeral

/-!
# Status requests as lines

A status request is the letter S and a number of two characters, which are two hexadecimal digits, or a plus sign and
one (`statusCode_eq_ok_iff`). So a command that is recognised as a status request is three ASCII characters long, and
never too long to be sent.
-/

namespace AlarmPanel

/-- The command is the letter S and two hexadecimal digits that spell the code. -/
def SpellsStatus (command : String) (code : UInt8) : Prop :=
  ∃ high low, command.toList = ['S', high, low] ∧ Text.Spells 16 Text.IsHexDigit [high, low] code.toNat

/-- The command is the letter S, a plus sign and one hexadecimal digit that spells the code. -/
def SpellsSignedStatus (command : String) (code : UInt8) : Prop :=
  ∃ digit, command.toList = ['S', '+', digit] ∧ Text.Spells 16 Text.IsHexDigit [digit] code.toNat

/-- Two characters are read as a number if they are its digits, or a plus sign and its digit. -/
theorem readSignedHexPair?_eq_some_iff {cs : List Char} {n : Nat} :
    readSignedHexPair? cs = some n ↔
      (∃ high low, cs = [high, low] ∧ Text.Spells 16 Text.IsHexDigit [high, low] n) ∨
        ∃ digit, cs = ['+', digit] ∧ Text.Spells 16 Text.IsHexDigit [digit] n := by
  constructor
  · intro h
    unfold readSignedHexPair? at h
    split at h
    next digit => exact .inr ⟨digit, rfl, (Text.readHex?_eq_some_iff.mp h).2⟩
    next high low _ => exact .inl ⟨high, low, rfl, (Text.readHex?_eq_some_iff.mp h).2⟩
    next => cases h
  · rintro (⟨high, low, rfl, h⟩ | ⟨digit, rfl, h⟩)
    · have hread : Text.readHex? [high, low] = some n :=
        Text.readHex?_eq_some_iff.mpr ⟨List.cons_ne_nil _ _, h⟩
      -- A plus sign is no digit.
      have hplus : high ≠ '+' := by
        rintro rfl
        cases hread
      rw [readSignedHexPair?, hread]
      exact fun heq => hplus heq
    · exact Text.readHex?_eq_some_iff.mpr ⟨List.cons_ne_nil _ _, h⟩

/-- What is recognised as a status request. -/
theorem statusCode_eq_ok_iff_read {command : String} {code : UInt8} :
    statusCode command = .ok code ↔ ∃ digits n, command.toList = 'S' :: digits ∧
      readSignedHexPair? digits = some n ∧ UInt8.ofNat n = code := by
  unfold statusCode
  dsimp only
  constructor
  · intro h
    split at h
    next digits hcommand =>
      split at h
      next n hread => exact ⟨digits, n, hcommand, hread, Except.ok.inj h⟩
      next => cases h
    next => cases h
  · rintro ⟨digits, n, hcommand, hread, rfl⟩
    simp only [hcommand, hread]

theorem lt_of_spells_pair {cs : List Char} {n : Nat} (h : Text.Spells 16 Text.IsHexDigit cs n)
    (hlength : cs.length ≤ 2) : n < 256 :=
  calc n < 16 ^ cs.length := h.lt_pow fun _ _ hdigit => hdigit.1
    _ ≤ 16 ^ 2 := Nat.pow_le_pow_right (by decide) hlength

/-- A command is recognised as a status request if it is the letter S and two hexadecimal digits, or the letter S, a
plus sign and one. -/
theorem statusCode_eq_ok_iff {command : String} {code : UInt8} :
    statusCode command = .ok code ↔ SpellsStatus command code ∨ SpellsSignedStatus command code := by
  rw [statusCode_eq_ok_iff_read]
  constructor
  · rintro ⟨digits, n, hcommand, hread, rfl⟩
    have hcode (hlt : n < 256) : (UInt8.ofNat n).toNat = n := Nat.mod_eq_of_lt hlt
    rcases readSignedHexPair?_eq_some_iff.mp hread with ⟨high, low, rfl, h⟩ | ⟨digit, rfl, h⟩
    · exact .inl ⟨high, low, hcommand, by rwa [hcode (lt_of_spells_pair h (Nat.le_refl 2))]⟩
    · exact .inr ⟨digit, hcommand, by rwa [hcode (lt_of_spells_pair h (Nat.le_succ 1))]⟩
  · rintro (⟨high, low, hcommand, h⟩ | ⟨digit, hcommand, h⟩)
    · exact ⟨_, _, hcommand, readSignedHexPair?_eq_some_iff.mpr (.inl ⟨high, low, rfl, h⟩), UInt8.ofNat_toNat⟩
    · exact ⟨_, _, hcommand, readSignedHexPair?_eq_some_iff.mpr (.inr ⟨digit, rfl, h⟩), UInt8.ofNat_toNat⟩

/-- The command for a status is read back as its code. -/
theorem statusCode_command (r : RequestId) : statusCode r.command = .ok r.code := by
  have hspells : Text.Spells 16 Text.IsHexDigit (Text.writeHex .upper 2 r.code.toNat) r.code.toNat :=
    Text.spells_writeHex .upper r.code.toNat_lt
  exact statusCode_eq_ok_iff.mpr (.inl ⟨_, _, String.toList_ofList, hspells⟩)

/-- Any other command is refused by its text. -/
theorem statusCode_eq_error {command : String} (h : ∀ code, statusCode command ≠ .ok code) :
    statusCode command = .error (.invalidArgument (.noStatusRequest command)) := by
  unfold statusCode at h ⊢
  dsimp only at h ⊢
  split
  next digits hcommand =>
    split
    next n hread => exact absurd (by simp only [hcommand, hread]) (h (UInt8.ofNat n))
    next => rfl
  next => rfl

/-- The number in a status request is written in two ASCII characters. -/
theorem isAscii_of_readSignedHexPair? {cs : List Char} {n : Nat} (h : readSignedHexPair? cs = some n) :
    Text.isAscii cs = true ∧ cs.length = 2 := by
  rcases readSignedHexPair?_eq_some_iff.mp h with ⟨high, low, rfl, hpair⟩ | ⟨digit, rfl, hdigit⟩
  · exact ⟨hpair.isAscii, rfl⟩
  · refine ⟨?_, rfl⟩
    rw [show ['+', digit] = ['+'] ++ [digit] from rfl, Text.isAscii_append, hdigit.isAscii]
    rfl

theorem isAscii_of_statusCode {command : String} {code : UInt8} (h : statusCode command = .ok code) :
    Text.isAscii command.toList = true ∧ command.toList.length = 3 := by
  obtain ⟨digits, n, hcommand, hread, -⟩ := statusCode_eq_ok_iff_read.mp h
  obtain ⟨hascii, hlength⟩ := isAscii_of_readSignedHexPair? hread
  rw [hcommand, show 'S' :: digits = ['S'] ++ digits from rfl, Text.isAscii_append, hascii]
  exact ⟨rfl, congrArg (· + 1) hlength⟩

theorem byteLength_of_statusCode {command : String} {code : UInt8} (h : statusCode command = .ok code) :
    Text.byteLength command.toList = 3 := by
  obtain ⟨hascii, hlength⟩ := isAscii_of_statusCode h
  rw [Text.byteLength_eq_length hascii, hlength]

/-- What is recognised as a status request can be sent. -/
theorem requestLine?_of_statusCode {command : String} {code : UInt8}
    (h : statusCode command = .ok code) : requestLine? command = .ok (requestLine command) := by
  unfold requestLine?
  dsimp only
  rw [byteLength_of_statusCode h, if_neg (by decide)]

end AlarmPanel
