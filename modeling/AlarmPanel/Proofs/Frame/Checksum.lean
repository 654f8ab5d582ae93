import Mathlib.Algebra.GroupWithZero.Nat
import Mathlib.Logic.ExistsUnique
import Mathlib.Tactic.ByContra
import AlarmPanel.Proofs.Frame.Fields
import AlarmPanel.Proofs.Text.Lines
import AlarmPanel.Frame.Encode

/-!
# The checksum of a line

The bytes of a line before its last two sum up, with the number that the last two spell, to a multiple of 256
(`Frame.sum_front_add_checksum`). So the last two tell apart lines of one length that differ in a single byte before
them, and no byte of a line can be garbled alone without notice (`Frame.encode_checksum`).
-/

namespace AlarmPanel

/-! ## Sums of bytes -/

/-- Bytes are summed modulo 256. -/
theorem toNat_foldl_add (bytes : List UInt8) (start : UInt8) :
    (bytes.foldl (· + ·) start).toNat = (start.toNat + (bytes.map UInt8.toNat).sum) % 256 := by
  induction bytes generalizing start with
  | nil =>
    have hlt := start.toNat_lt
    simp only [List.foldl_nil, List.map_nil, List.sum_nil]
    omega
  | cons b bytes ih =>
    rw [List.foldl_cons, ih, UInt8.toNat_add, List.map_cons, List.sum_cons]
    omega

theorem toNat_byteSum (cs : List Char) :
    (byteSum cs).toNat = ((Text.encodeUtf8 cs).map UInt8.toNat).sum % 256 := by
  rw [byteSum, toNat_foldl_add, UInt8.toNat_zero, Nat.zero_add]
  rfl

theorem sum_add_checksumOf (cs : List Char) :
    (((Text.encodeUtf8 cs).map UInt8.toNat).sum + (checksumOf cs).toNat) % 256 = 0 := by
  have hsum := toNat_byteSum cs
  have hlt := (byteSum cs).toNat_lt
  rw [checksumOf, UInt8.toNat_sub, UInt8.toNat_zero]
  omega

/-- Lists of one length that differ at a single place are the same before and behind it. -/
theorem exists_split_of_differ_once {α : Type} {xs ys : List α} (hlen : xs.length = ys.length)
    (h : ∃! i : Nat, xs[i]? ≠ ys[i]?) :
    ∃ before x y after, xs = before ++ x :: after ∧ ys = before ++ y :: after ∧ x ≠ y := by
  obtain ⟨i, hi, hunique⟩ := h
  have helse (j : Nat) (hj : j ≠ i) : xs[j]? = ys[j]? := by
    by_contra hne
    exact hj (hunique j hne)
  have hxs : i < xs.length := by
    by_contra hle
    exact hi ((List.getElem?_eq_none (by omega)).trans (List.getElem?_eq_none (by omega)).symm)
  have hys : i < ys.length := hlen ▸ hxs
  have hbefore : xs.take i = ys.take i := by
    apply List.ext_getElem?
    intro j
    rw [List.getElem?_take, List.getElem?_take]
    split
    · next hj => exact helse j (Nat.ne_of_lt hj)
    · rfl
  have hafter : xs.drop (i + 1) = ys.drop (i + 1) := by
    apply List.ext_getElem?
    intro j
    rw [List.getElem?_drop, List.getElem?_drop]
    exact helse _ (by omega)
  refine ⟨xs.take i, xs[i], ys[i], xs.drop (i + 1), ?_, ?_, ?_⟩
  · rw [← List.drop_eq_getElem_cons hxs, List.take_append_drop]
  · rw [hbefore, hafter, ← List.drop_eq_getElem_cons hys, List.take_append_drop]
  · intro heq
    rw [List.getElem?_eq_getElem hxs, List.getElem?_eq_getElem hys, heq] at hi
    exact hi rfl

namespace Frame

/-! ## The two parts of a line -/

/-- The bytes of the line. -/
def wire (f : Frame) : List UInt8 := Text.encodeUtf8 f.encode.toList

/-- The bytes before the last two. -/
def front (f : Frame) : List UInt8 := f.wire.take (f.wire.length - 2)

/-- The last two characters of the line. -/
def lastTwo (f : Frame) : List Char := f.encode.toList.drop (f.encode.toList.length - 2)

theorem toList_encode_eq_append (f : Frame) :
    f.encode.toList = f.body ++ Text.writeHex .upper 2 f.checksum.toNat := String.toList_ofList

theorem lastTwo_eq (f : Frame) : f.lastTwo = Text.writeHex .upper 2 f.checksum.toNat := by
  rw [lastTwo, toList_encode_eq_append, List.length_append, Text.length_writeHex, Nat.add_sub_cancel]
  exact List.drop_left

/-- The last two characters are two bytes, so the rest is the body of the frame. -/
theorem front_eq (f : Frame) : f.front = Text.encodeUtf8 f.body := by
  have hdigits : (Text.encodeUtf8 (Text.writeHex .upper 2 f.checksum.toNat)).length = 2 := by
    rw [Text.encodeUtf8_of_isAscii (Text.isAscii_writeHex _ _ _), List.length_map, Text.length_writeHex]
  rw [front, wire, toList_encode_eq_append, Text.encodeUtf8_append, List.length_append, hdigits, Nat.add_sub_cancel]
  exact List.take_left

theorem length_wire (f : Frame) : f.wire.length = f.front.length + 2 := by
  rw [front_eq, wire, toList_encode_eq_append, Text.encodeUtf8_append, List.length_append,
    Text.encodeUtf8_of_isAscii (Text.isAscii_writeHex _ _ _), List.length_map, Text.length_writeHex]

theorem sum_front_add_checksum (f : Frame) : ((f.front.map UInt8.toNat).sum + f.checksum.toNat) % 256 = 0 := by
  rw [front_eq]
  exact sum_add_checksumOf f.body

/-- The last two characters are the checksum and nothing else. -/
theorem checksum_eq_of_lastTwo {f g : Frame} (h : f.lastTwo = g.lastTwo) : f.checksum = g.checksum := by
  rw [lastTwo_eq, lastTwo_eq] at h
  have hf := hexField_writeHex_two .upper f.checksum
  rw [h] at hf
  exact hf.unique (hexField_writeHex_two .upper g.checksum)

/-- A line ends in two digits of the number that its other bytes lack of a multiple of 256. Two lines of one length
that differ in one byte before these digits differ in them too. -/
theorem encode_checksum (f : Frame) :
    f.lastTwo = [Text.hexDigit .upper (f.checksum.toNat / 16), Text.hexDigit .upper (f.checksum.toNat % 16)] ∧
      ((f.front.map UInt8.toNat).sum + f.checksum.toNat) % 256 = 0 ∧
      ∀ g : Frame, f.wire.length = g.wire.length → (∃! i : Nat, f.front[i]? ≠ g.front[i]?) → f.lastTwo ≠ g.lastTwo := by
  refine ⟨?_, f.sum_front_add_checksum, fun g hlen honce hsame => ?_⟩
  · have hlow : f.checksum.toNat / 16 % 16 = f.checksum.toNat / 16 := by
      have hlt := f.checksum.toNat_lt
      omega
    rw [lastTwo_eq]
    simp only [Text.writeHex, List.nil_append, List.singleton_append, hlow]
  · rw [length_wire, length_wire, Nat.add_right_cancel_iff] at hlen
    obtain ⟨before, x, y, after, hf, hg, hne⟩ := exists_split_of_differ_once hlen honce
    have hfsum := f.sum_front_add_checksum
    have hgsum := g.sum_front_add_checksum
    rw [← checksum_eq_of_lastTwo hsame] at hgsum
    rw [hf] at hfsum
    rw [hg] at hgsum
    simp only [List.map_append, List.map_cons, List.sum_append, List.sum_cons] at hfsum hgsum
    -- The two sums are congruent, and all but one byte of them is the same.
    have hx := x.toNat_lt
    have hy := y.toNat_lt
    exact hne (UInt8.toNat_inj.mp (by omega))

/-- Two requests that differ in one digit differ in their checksums as well. -/
theorem encode_checksum_requests :
    (request "S14").wire.length = (request "S15").wire.length ∧
      (∃! i : Nat, (request "S14").front[i]? ≠ (request "S15").front[i]?) ∧
      (request "S14").lastTwo ≠ (request "S15").lastTwo := by
  have hlen : (request "S14").wire.length = (request "S15").wire.length := by decide +kernel
  have honce : ∃! i : Nat, (request "S14").front[i]? ≠ (request "S15").front[i]? := by
    have hfirst : (request "S14").front.length = 10 := by decide +kernel
    have hsecond : (request "S15").front.length = 10 := by decide +kernel
    have hplaces : ∀ i < 10, (request "S14").front[i]? ≠ (request "S15").front[i]? → i = 9 := by decide +kernel
    refine ⟨9, by decide +kernel, fun i hi => ?_⟩
    rcases Nat.lt_or_ge i 10 with hlt | hge
    · exact hplaces i hlt hi
    · exact absurd ((List.getElem?_eq_none (by omega)).trans (List.getElem?_eq_none (by omega)).symm) hi
  exact ⟨hlen, honce, (encode_checksum (request "S14")).2.2 _ hlen honce⟩

end Frame

end AlarmPanel
