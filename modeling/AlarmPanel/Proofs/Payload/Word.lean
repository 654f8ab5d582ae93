import AlarmPanel.Proofs.Frame.Fields
import AlarmPanel.Status.Request
import AlarmPanel.Status.Flags

/-!
# Sixteen-bit words

A status word is declared where its flags have their bits (`FlagSet.testBit_allBits`), and reading it drops
every other bit (`FlagSet.eq_declared_iff`). On the wire a word is four digits, the fields of its two bytes
(`wordField_iff`).
-/

namespace AlarmPanel

/-! ## Flags -/

namespace FlagSet

variable {F : Type} [Flag F]

/-- Every bit that is set is the bit of some flag. -/
def OnlyDeclared (s : FlagSet F) : Prop :=
  ∀ i, s.bits.toNat.testBit i = true → ∃ f ∈ (Flag.all : List F), (Flag.mask f).toNat.testBit i = true

theorem testBit_foldl_mask (flags : List F) (w : UInt16) (i : Nat) :
    (flags.foldl (fun w f => w ||| Flag.mask f) w).toNat.testBit i = true ↔
      w.toNat.testBit i = true ∨ ∃ f ∈ flags, (Flag.mask f).toNat.testBit i = true := by
  induction flags generalizing w with
  | nil => simp
  | cons f flags ih =>
    rw [List.foldl_cons, ih, UInt16.toNat_or, Nat.testBit_or, Bool.or_eq_true, or_assoc]
    simp

/-- The bits that stand for a flag are the bits of the flags. -/
theorem testBit_allBits (i : Nat) :
    (allBits F).toNat.testBit i = true ↔
      ∃ f ∈ (Flag.all : List F), (Flag.mask f).toNat.testBit i = true := by
  rw [allBits, ofList, testBit_foldl_mask]
  simp

/-- Leaving out the undeclared bits changes nothing exactly if there are none. -/
theorem declared_eq_self_iff {s : FlagSet F} : declared s.bits = s ↔ s.OnlyDeclared := by
  have hbits : declared s.bits = s ↔ s.bits &&& allBits F = s.bits := by
    rw [declared, FlagSet.mk.injEq]
  rw [hbits, ← UInt16.toNat_inj, UInt16.toNat_and]
  constructor
  · intro h i hi
    rw [← testBit_allBits]
    rw [← h, Nat.testBit_and, Bool.and_eq_true] at hi
    exact hi.2
  · intro h
    refine Nat.eq_of_testBit_eq fun i => ?_
    rw [Nat.testBit_and]
    cases hi : s.bits.toNat.testBit i with
    | false => rfl
    | true =>
      rw [Bool.true_and]
      exact (testBit_allBits i).mpr (h i hi)

theorem eq_declared_iff {s : FlagSet F} {w : UInt16} :
    s = declared w ↔ s.OnlyDeclared ∧ s.bits = w &&& allBits F := by
  constructor
  · rintro rfl
    refine ⟨declared_eq_self_iff.mp ?_, rfl⟩
    rw [declared, declared, UInt16.and_assoc, UInt16.and_self]
  · rintro ⟨-, hbits⟩
    rw [declared, ← hbits]

end FlagSet

/-- The bits that mean something in the answer to a request. A view state and a version use all of them. -/
def RequestId.declaredBits : RequestId → UInt16
  | .zone _ _ => FlagSet.allBits BankZone
  | .arming => FlagSet.allBits ArmingFlag
  | .miscAlarms => FlagSet.allBits MiscAlarm
  | .outputs => FlagSet.allBits Output
  | .viewState => 0xffff
  | .panelVersion => 0xffff
  | .auxOutputs => FlagSet.allBits AuxOutput

theorem and_all_ones (w : UInt16) : w &&& 0xffff = w := by
  rw [← UInt16.toNat_inj, UInt16.toNat_and]
  exact (Nat.and_two_pow_sub_one_eq_mod w.toNat 16).trans (Nat.mod_eq_of_lt w.toNat_lt)

/-! ## Four digits -/

/-- The characters are four hexadecimal digits, and the word is the number that they spell. -/
def WordField (digits : List Char) (w : UInt16) : Prop :=
  digits.length = 4 ∧ Text.Spells 16 Text.IsHexDigit digits w.toNat

theorem toNat_ofBytes (high low : UInt8) :
    (UInt16.ofNat (256 * high.toNat + low.toNat)).toNat = 256 * high.toNat + low.toNat := by
  have hhigh := high.toNat_lt
  have hlow := low.toNat_lt
  exact UInt16.toNat_ofNat_of_lt' (by change _ < 65536; omega)

theorem wordField_writeHex (letters : Text.LetterCase) (w : UInt16) :
    WordField (Text.writeHex letters 4 w.toNat) w :=
  ⟨Text.length_writeHex letters 4 w.toNat, Text.spells_writeHex letters w.toNat_lt⟩

theorem WordField.map_toLower {digits : List Char} {w : UInt16} (h : WordField digits w) :
    digits.map Char.toLower = Text.writeHex .lower 4 w.toNat := by
  rw [h.2.map_toLower, h.1]

/-- Four digits are the fields of two bytes, and the high one stands first. -/
theorem wordField_iff {digits : List Char} {w : UInt16} :
    WordField digits w ↔
      ∃ front back high low, digits = front ++ back ∧ HexField 2 front high ∧ HexField 2 back low ∧
        w = UInt16.ofNat (256 * high.toNat + low.toNat) := by
  simp only [← UInt16.toNat_inj, toNat_ofBytes]
  exact length_and_spells_iff (v := 2) (w := 2) (by decide) (by decide)

end AlarmPanel
