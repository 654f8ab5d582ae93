/-!
# Text measured in UTF-8 bytes

Lengths and cuts of a text count the bytes of its UTF-8 form. A cut that falls inside a character, or
behind the end, has no result. On ASCII text bytes and characters are the same
(`byteLength_eq_length`).
-/

namespace AlarmPanel.Text

/-- The number of bytes that the characters take in UTF-8. -/
def byteLength : List Char → Nat
  | [] => 0
  | c :: cs => c.utf8Size + byteLength cs

/-- Splits off the first `n` bytes, if that cut falls between two characters. -/
def splitBytes? : Nat → List Char → Option (List Char × List Char)
  | 0, cs => some ([], cs)
  | _ + 1, [] => none
  | n + 1, c :: cs =>
    if c.utf8Size ≤ n + 1 then
      (splitBytes? (n + 1 - c.utf8Size) cs).map fun (taken, rest) => (c :: taken, rest)
    else none

/-- The characters in the byte range from `start` to `stop`, if both ends fall between characters. -/
def byteRange? (start stop : Nat) (cs : List Char) : Option (List Char) := do
  let (_, rest) ← splitBytes? start cs
  let (taken, _) ← splitBytes? (stop - start) rest
  return taken

/-- Whether every character is one of the 128 ASCII characters. -/
def isAscii (cs : List Char) : Bool := cs.all fun c => c.toNat < 128

@[simp] theorem byteLength_nil : byteLength [] = 0 := rfl

@[simp] theorem byteLength_cons (c : Char) (cs : List Char) :
    byteLength (c :: cs) = c.utf8Size + byteLength cs := rfl

theorem byteLength_append (as bs : List Char) :
    byteLength (as ++ bs) = byteLength as + byteLength bs := by
  induction as with
  | nil => simp
  | cons a as ih => simp [ih]; omega

theorem utf8Size_of_ascii {c : Char} (h : c.toNat < 128) : c.utf8Size = 1 := by
  have hle : c.val ≤ 127 := by
    rw [UInt32.le_iff_toNat_le]
    exact Nat.le_of_lt_succ h
  simp [Char.utf8Size, hle]

/-- An ASCII text has as many bytes as characters. -/
theorem byteLength_eq_length {cs : List Char} (h : isAscii cs = true) :
    byteLength cs = cs.length := by
  induction cs with
  | nil => rfl
  | cons c cs ih =>
    simp only [isAscii, List.all_cons, Bool.and_eq_true, decide_eq_true_eq] at h
    simp only [byteLength_cons, List.length_cons, utf8Size_of_ascii h.1, ih h.2]
    omega

end AlarmPanel.Text
