import AlarmPanel.Proofs.Payload.Word
import Mathlib.Data.Nat.Bitwise

/-!
# Words that are built from flags

A word that is built from a list of flags has no undeclared bits (`FlagSet.declared_ofList`), so it loses
nothing on the wire. Where each flag has a bit of its own (`OneBit`), as the zones of a bank and the outputs have,
a word that is built from flags has those flags and no others (`FlagSet.has_ofList_iff`), and to assign one flag
leaves the others as they are (`FlagSet.has_assign`).
-/

namespace AlarmPanel

/-- Each flag has a bit of its own. -/
class OneBit (F : Type) [Flag F] where
  bit : F → Nat
  mask_eq : ∀ f, (Flag.mask f).toNat = 2 ^ bit f
  bit_inj : ∀ f g, bit f = bit g ↔ f = g
  mem_all : ∀ f, f ∈ (Flag.all : List F)

namespace BankZone

/-- The bit of a zone in the word of its bank. -/
def bit (z : BankZone) : Nat := if z.place.val < 8 then z.place.val + 8 else z.place.val - 8

theorem mask_eq_two_pow (z : BankZone) : (Flag.mask z).toNat = 2 ^ z.bit := by
  have hall : ∀ place : Fin 16, (mask ⟨place⟩).toNat = 2 ^ bit ⟨place⟩ := by decide
  exact hall z.place

theorem bit_inj {y z : BankZone} : y.bit = z.bit ↔ y = z := by
  obtain ⟨⟨a, ha⟩⟩ := y
  obtain ⟨⟨b, hb⟩⟩ := z
  simp only [bit, BankZone.mk.injEq, Fin.mk.injEq]
  split <;> split <;> omega

theorem mem_all (z : BankZone) : z ∈ (Flag.all : List BankZone) :=
  List.mem_map.mpr ⟨z.place, List.mem_finRange _, rfl⟩

instance : OneBit BankZone where
  bit := bit
  mask_eq := mask_eq_two_pow
  bit_inj _ _ := bit_inj
  mem_all := mem_all

end BankZone

namespace AuxOutput

theorem mask_eq_two_pow (o : AuxOutput) : (Flag.mask o).toNat = 2 ^ o.place.val := by
  have hall : ∀ place : Fin 8, (Flag.mask (AuxOutput.mk place)).toNat = 2 ^ place.val := by decide
  exact hall o.place

theorem place_inj {o p : AuxOutput} : o.place.val = p.place.val ↔ o = p := by
  obtain ⟨⟨a, ha⟩⟩ := o
  obtain ⟨⟨b, hb⟩⟩ := p
  simp only [AuxOutput.mk.injEq, Fin.mk.injEq]

theorem mem_all (o : AuxOutput) : o ∈ (Flag.all : List AuxOutput) :=
  List.mem_map.mpr ⟨o.place, List.mem_finRange _, rfl⟩

instance : OneBit AuxOutput where
  bit o := o.place.val
  mask_eq := mask_eq_two_pow
  bit_inj _ _ := place_inj
  mem_all := mem_all

end AuxOutput

namespace FlagSet

theorem declared_ofList {F : Type} [Flag F] {flags : List F}
    (h : ∀ f ∈ flags, f ∈ (Flag.all : List F)) : declared (ofList flags).bits = ofList flags := by
  refine declared_eq_self_iff.mpr fun i hi => ?_
  rw [ofList, testBit_foldl_mask] at hi
  rcases hi with hzero | ⟨f, hf, hbit⟩
  · simp at hzero
  · exact ⟨f, h f hf, hbit⟩

theorem onlyDeclared_empty {F : Type} [Flag F] : (empty : FlagSet F).OnlyDeclared := by
  intro i hi
  rw [empty, UInt16.toNat_zero, Nat.zero_testBit] at hi
  cases hi

variable {F : Type} [Flag F] [OneBit F] {f g : F}

theorem testBit_mask_iff {i : Nat} : (Flag.mask f).toNat.testBit i = true ↔ OneBit.bit f = i := by
  rw [OneBit.mask_eq, Nat.testBit_two_pow, decide_eq_true_eq]

theorem has_eq_testBit (s : FlagSet F) (f : F) : s.has f = s.bits.toNat.testBit (OneBit.bit f) := by
  have hpos : 0 ≠ 2 ^ OneBit.bit f := (Nat.two_pow_pos _).ne
  rw [has, Bool.eq_iff_iff, beq_iff_eq, ← UInt16.toNat_inj, UInt16.toNat_and, OneBit.mask_eq, Nat.and_two_pow]
  cases s.bits.toNat.testBit (OneBit.bit f) <;> simp [hpos]

/-- A word that is built from flags has those flags. -/
theorem has_ofList_iff {flags : List F} : (ofList flags).has f = true ↔ f ∈ flags := by
  rw [has_eq_testBit, ofList, testBit_foldl_mask]
  simp only [testBit_mask_iff, OneBit.bit_inj]
  simp

theorem has_empty (f : F) : (empty : FlagSet F).has f = false := by
  rw [has_eq_testBit, empty]
  exact Nat.zero_testBit _

/-- A word without undeclared bits is built from the flags it has. -/
theorem ofList_toList {s : FlagSet F} (h : s.OnlyDeclared) : ofList s.toList = s := by
  have hbits : (ofList s.toList).bits = s.bits := by
    refine UInt16.toNat_inj.mp (Nat.eq_of_testBit_eq fun i => ?_)
    rw [Bool.eq_iff_iff, ofList, testBit_foldl_mask]
    simp only [testBit_mask_iff, toList, List.mem_filter, UInt16.toNat_zero, Nat.zero_testBit, Bool.false_eq_true,
      false_or]
    constructor
    · rintro ⟨f, ⟨-, hf⟩, rfl⟩
      rwa [has_eq_testBit] at hf
    · intro hi
      obtain ⟨f, hall, hf⟩ := h i hi
      rw [testBit_mask_iff] at hf
      exact ⟨f, ⟨hall, by rwa [has_eq_testBit, hf]⟩, hf⟩
  cases s
  exact congrArg mk hbits

theorem testBit_of_le {w : UInt16} {i : Nat} (hi : 16 ≤ i) : w.toNat.testBit i = false :=
  Nat.testBit_lt_two_pow (Nat.lt_of_lt_of_le w.toNat_lt (Nat.pow_le_pow_right (by decide) hi))

theorem testBit_not (w : UInt16) {i : Nat} (hi : i < 16) : (~~~w).toNat.testBit i = !w.toNat.testBit i := by
  have hlt : w.toNat < 2 ^ 16 := w.toNat_lt
  have hnot : (~~~w).toNat = 2 ^ 16 - (w.toNat + 1) := by
    rw [UInt16.toNat_not, Nat.add_comm]
    exact Nat.sub_sub _ 1 _
  rw [hnot, Nat.testBit_two_pow_sub_succ hlt, decide_eq_true hi, Bool.true_and]

/-- Assigning a flag sets its bit and leaves the others as they are. -/
theorem testBit_assign (s : FlagSet F) (f : F) (on : Bool) (i : Nat) :
    (s.assign f on).bits.toNat.testBit i = if OneBit.bit f = i then on else s.bits.toNat.testBit i := by
  have hmask : (Flag.mask f).toNat.testBit i = decide (OneBit.bit f = i) := by
    rw [OneBit.mask_eq, Nat.testBit_two_pow]
  cases on with
  | true =>
    rw [assign, if_pos rfl, UInt16.toNat_or, Nat.testBit_or, hmask]
    by_cases hi : OneBit.bit f = i <;> simp [hi]
  | false =>
    rw [assign, if_neg (by decide), UInt16.toNat_and, Nat.testBit_and]
    rcases Nat.lt_or_ge i 16 with hlt | hge
    · rw [testBit_not _ hlt, hmask]
      by_cases hi : OneBit.bit f = i <;> simp [hi]
    · rw [testBit_of_le hge, Bool.false_and, ite_self]

theorem has_assign [DecidableEq F] (s : FlagSet F) (f g : F) (on : Bool) :
    (s.assign f on).has g = if f = g then on else s.has g := by
  rw [has_eq_testBit, testBit_assign, has_eq_testBit]
  simp only [OneBit.bit_inj]

theorem OnlyDeclared.assign {s : FlagSet F} (h : s.OnlyDeclared) (f : F) (on : Bool) :
    (s.assign f on).OnlyDeclared := by
  intro i hi
  rw [testBit_assign] at hi
  split at hi
  · next hf => exact ⟨f, OneBit.mem_all f, testBit_mask_iff.mpr hf⟩
  · exact h i hi

end FlagSet

end AlarmPanel
