import AlarmPanel.Proofs.Text.Numeral
import AlarmPanel.Text.Blank
import AlarmPanel.Text.Lines
import AlarmPanel.Text.Utf8

/-!
# Lines of text

A stream has as many lines as line feeds, and an ASCII text that is sent as a line comes back as it was, if
it does not begin or end with blank characters.
-/

namespace AlarmPanel.Text

/-! ## Cutting -/

/-- Every line feed ends a line. -/
theorem length_cutLines (unfinished bytes : List UInt8) :
    (cutLines unfinished bytes).1.length = bytes.count lineFeed := by
  induction bytes generalizing unfinished with
  | nil => rfl
  | cons b bs ih =>
    rw [cutLines]
    split
    next hfeed =>
      rw [hfeed, List.count_cons_self, ← ih []]
      rfl
    next hother => rw [ih, List.count_cons_of_ne hother]

theorem cutLines_of_not_mem {bytes : List UInt8} (h : lineFeed ∉ bytes) (unfinished : List UInt8) :
    cutLines unfinished bytes = ([], unfinished ++ bytes) := by
  induction bytes generalizing unfinished with
  | nil => rw [cutLines, List.append_nil]
  | cons b bs ih =>
    obtain ⟨hb, hbs⟩ := not_or.mp (mt List.mem_cons.mpr h)
    rw [cutLines, if_neg (Ne.symm hb), ih hbs, List.append_assoc, List.singleton_append]

/-- Bytes that only end with a line feed are one line. -/
theorem cutLines_concat {bytes : List UInt8} (h : lineFeed ∉ bytes) :
    cutLines [] (bytes ++ [lineFeed]) = ([bytes], []) := by
  rw [cutLines_append, cutLines_of_not_mem h]
  rfl

theorem dropCarriageReturn_concat (line : List UInt8) : dropCarriageReturn (line ++ [carriageReturn]) = line := by
  simp [dropCarriageReturn]

/-! ## ASCII text as bytes -/

theorem isAscii_cons (c : Char) (cs : List Char) :
    isAscii (c :: cs) = true ↔ c.toNat < 128 ∧ isAscii cs = true := by
  simp [isAscii]

theorem utf8EncodeChar_of_ascii {c : Char} (h : c.toNat < 128) :
    String.utf8EncodeChar c = [UInt8.ofNat c.toNat] := by
  rw [String.utf8EncodeChar_eq_singleton (utf8Size_of_ascii h)]
  rfl

theorem encodeUtf8_append (as bs : List Char) : encodeUtf8 (as ++ bs) = encodeUtf8 as ++ encodeUtf8 bs :=
  List.flatMap_append

theorem encodeUtf8_of_isAscii {cs : List Char} (h : isAscii cs = true) :
    encodeUtf8 cs = cs.map fun c => UInt8.ofNat c.toNat := by
  induction cs with
  | nil => rfl
  | cons c cs ih =>
    obtain ⟨hc, hcs⟩ := (isAscii_cons c cs).mp h
    rw [encodeUtf8, List.flatMap_cons, utf8EncodeChar_of_ascii hc, List.map_cons, ← ih hcs]
    rfl

theorem decodeUtf8?_encodeUtf8 {cs : List Char} (h : isAscii cs = true) :
    decodeUtf8? (encodeUtf8 cs) = some cs := by
  rw [encodeUtf8_of_isAscii h, decodeUtf8?]
  induction cs with
  | nil => rfl
  | cons c cs ih =>
    obtain ⟨hc, hcs⟩ := (isAscii_cons c cs).mp h
    have hbyte : (UInt8.ofNat c.toNat).toNat = c.toNat := Nat.mod_eq_of_lt (by omega)
    have hlead : leadByte (UInt8.ofNat c.toNat) = .whole c := by
      rw [leadByte, hbyte, if_pos hc, Char.ofNat_toNat]
    rw [List.map_cons, utf8Pieces, Option.bind_none, hlead]
    simp [ih hcs]

/-- Of the ASCII characters only the line feed is sent as one. -/
theorem ofNat_eq_lineFeed_iff {c : Char} (h : c.toNat < 128) : UInt8.ofNat c.toNat = lineFeed ↔ c = '\n' := by
  constructor
  · intro heq
    have hnat : c.toNat = 10 := by
      have hbyte := congrArg UInt8.toNat heq
      rwa [UInt8.toNat_ofNat', Nat.mod_eq_of_lt (by omega)] at hbyte
    exact (Char.ofNat_toNat c).symm.trans (congrArg Char.ofNat hnat)
  · rintro rfl
    rfl

theorem count_encodeUtf8 {cs : List Char} (h : isAscii cs = true) :
    (encodeUtf8 cs).count lineFeed = cs.count '\n' := by
  rw [encodeUtf8_of_isAscii h]
  induction cs with
  | nil => rfl
  | cons c cs ih =>
    obtain ⟨hc, hcs⟩ := (isAscii_cons c cs).mp h
    have hsame : (UInt8.ofNat c.toNat == lineFeed) = (c == '\n') := by
      rw [Bool.eq_iff_iff, beq_iff_eq, beq_iff_eq, ofNat_eq_lineFeed_iff hc]
    rw [List.map_cons, List.count_cons, List.count_cons, ih hcs, hsame]

/-! ## Blank characters -/

/-- A text with no blank character at its ends stays as it is. -/
theorem trim_eq_self {cs : List Char} (hhead : ∀ c ∈ cs.head?, isBlank c = false)
    (hlast : ∀ c ∈ cs.getLast?, isBlank c = false) : trim cs = cs := by
  have hdrop {ds : List Char} (h : ∀ c ∈ ds.head?, isBlank c = false) : ds.dropWhile isBlank = ds := by
    cases ds with
    | nil => rfl
    | cons d ds => exact List.dropWhile_cons_of_neg (Bool.eq_false_iff.mp (h d rfl))
  rw [trim, hdrop hhead, hdrop (by rwa [List.head?_reverse]), List.reverse_reverse]

/-- Blank characters at the end of a text make no difference to what remains. -/
theorem trim_append_blank {cs blanks : List Char} (h : ∀ c ∈ blanks, isBlank c = true) :
    trim (cs ++ blanks) = trim cs := by
  have hnone : blanks.dropWhile isBlank = [] := by
    rw [← List.append_nil blanks, List.dropWhile_append_of_pos h, List.dropWhile_nil]
  have hreversed : ∀ c ∈ blanks.reverse, isBlank c = true := fun c hc => h c (List.mem_reverse.mp hc)
  rw [trim, trim, List.dropWhile_append]
  split
  next hempty => rw [hnone, List.isEmpty_iff.mp hempty]
  next => rw [List.reverse_append, List.dropWhile_append_of_pos hreversed]

theorem isBlank_hexDigit (letters : LetterCase) {d : Nat} (h : d < 16) : isBlank (hexDigit letters d) = false := by
  cases letters
  · revert d
    decide
  · revert d
    decide

/-- No character of a numeral is blank. -/
theorem isBlank_of_mem_writeHex {letters : LetterCase} {width n : Nat} {c : Char}
    (h : c ∈ writeHex letters width n) : isBlank c = false := by
  induction width generalizing n with
  | zero => cases h
  | succ width ih =>
    rw [writeHex, List.mem_append, List.mem_singleton] at h
    rcases h with h | rfl
    · exact ih h
    · exact isBlank_hexDigit letters (Nat.mod_lt n (by decide))

end AlarmPanel.Text
