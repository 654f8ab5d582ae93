import Mathlib.Algebra.Group.Nat.Defs
import AlarmPanel.Text.Bytes
import AlarmPanel.Text.Numeral

/-!
# What numerals spell

`Spells` says what number a numeral stands for without reading it: each character is a digit, and each
place counts `base` times as much as the one after it. Reading is exact for that relation
(`readDigits_eq_some_iff`), so a numeral has only one value (`Spells.unique`), and what is written spells
the number it was written for (`spells_writeHex`, `spells_writeDec`). Written again, a numeral only loses its
capitals (`Spells.map_toLower`, `Spells.eq_writeDec`), and its parts are numerals (`Spells.append`,
`Spells.split`).
-/

namespace AlarmPanel.Text

/-! ## Digits -/

/-- The character is the hexadecimal digit of the value, in either case. -/
def IsHexDigit (c : Char) (d : Nat) : Prop :=
  d < 16 ∧ (c = hexDigit .lower d ∨ c = hexDigit .upper d)

/-- The character is the decimal digit of the value. -/
def IsDecDigit (c : Char) (d : Nat) : Prop := d < 10 ∧ c = Char.ofNat (48 + d)

/-- A range of characters is a range of code points. -/
theorem mem_range_iff {lo hi c : Char} : lo ≤ c ∧ c ≤ hi ↔ lo.toNat ≤ c.toNat ∧ c.toNat ≤ hi.toNat := by
  rw [Char.le_def, Char.le_def, UInt32.le_iff_toNat_le, UInt32.le_iff_toNat_le]
  rfl

/-- A character is found again by its distance from another one. -/
theorem ofNat_add_sub {k : Nat} {c : Char} (h : k ≤ c.toNat) : Char.ofNat (k + (c.toNat - k)) = c := by
  rw [Nat.add_sub_cancel' h, Char.ofNat_toNat]

theorem decValue?_eq_some_iff (c : Char) (d : Nat) : decValue? c = some d ↔ IsDecDigit c d := by
  constructor
  · intro h
    simp only [decValue?, mem_range_iff] at h
    split at h
    next hc =>
      obtain ⟨hlo, hhi⟩ := hc
      have hd : c.toNat - 48 = d := Option.some.inj h
      subst hd
      exact ⟨by change c.toNat ≤ 57 at hhi; omega, (ofNat_add_sub hlo).symm⟩
    next => simp at h
  · rintro ⟨hd, rfl⟩
    revert d
    decide

theorem hexValue?_eq_some_iff (c : Char) (d : Nat) : hexValue? c = some d ↔ IsHexDigit c d := by
  constructor
  · intro h
    simp only [hexValue?, mem_range_iff] at h
    split at h
    · next hc =>
      obtain ⟨hlo, hhi⟩ := hc
      have hd : c.toNat - 48 = d := Option.some.inj h
      change 48 ≤ c.toNat at hlo
      change c.toNat ≤ 57 at hhi
      subst hd
      refine ⟨by omega, .inl ?_⟩
      rw [hexDigit, if_pos (by omega)]
      exact (ofNat_add_sub hlo).symm
    split at h
    · next hc =>
      obtain ⟨hlo, hhi⟩ := hc
      have hd : c.toNat - 87 = d := Option.some.inj h
      change 97 ≤ c.toNat at hlo
      change c.toNat ≤ 102 at hhi
      subst hd
      refine ⟨by omega, .inl ?_⟩
      rw [hexDigit, if_neg (by omega)]
      exact (ofNat_add_sub (by omega)).symm
    split at h
    · next hc =>
      obtain ⟨hlo, hhi⟩ := hc
      have hd : c.toNat - 55 = d := Option.some.inj h
      change 65 ≤ c.toNat at hlo
      change c.toNat ≤ 70 at hhi
      subst hd
      refine ⟨by omega, .inr ?_⟩
      rw [hexDigit, if_neg (by omega)]
      exact (ofNat_add_sub (by omega)).symm
    · simp at h
  · rintro ⟨hd, rfl | rfl⟩
    · revert d
      decide
    · revert d
      decide

/-! ## Numerals -/

/-- The characters spell the number in a positional system. -/
inductive Spells (base : Nat) (IsDigit : Char → Nat → Prop) : List Char → Nat → Prop
  | nil : Spells base IsDigit [] 0
  | snoc {cs : List Char} {n : Nat} {c : Char} {d : Nat} :
      Spells base IsDigit cs n → IsDigit c d → Spells base IsDigit (cs ++ [c]) (base * n + d)

/-- Reading goes on after a numeral with the number that it spells. -/
theorem readDigits_append {base : Nat} {value? : Char → Option Nat} (acc : Nat) (as bs : List Char) :
    readDigits base value? acc (as ++ bs) =
      (readDigits base value? acc as).bind fun n => readDigits base value? n bs := by
  induction as generalizing acc with
  | nil => rfl
  | cons a as ih =>
    cases ha : value? a with
    | none => simp [readDigits, ha]
    | some d => simp [readDigits, ha, ih]

section Reading

variable {base : Nat} {value? : Char → Option Nat} {IsDigit : Char → Nat → Prop}

theorem Spells.append_of_readDigits (hv : ∀ c d, value? c = some d ↔ IsDigit c d)
    {as cs : List Char} {acc n : Nat} (has : Spells base IsDigit as acc)
    (h : readDigits base value? acc cs = some n) : Spells base IsDigit (as ++ cs) n := by
  induction cs generalizing as acc with
  | nil =>
    have hn : acc = n := Option.some.inj h
    rw [List.append_nil, ← hn]
    exact has
  | cons c cs ih =>
    obtain ⟨d, hd, hcs⟩ := Option.bind_eq_some_iff.mp h
    have hac : Spells base IsDigit (as ++ [c]) (base * acc + d) := has.snoc ((hv c d).mp hd)
    have hall := ih hac hcs
    rwa [List.append_assoc] at hall

/-- Reading finds exactly the number that the characters spell. -/
theorem readDigits_eq_some_iff (hv : ∀ c d, value? c = some d ↔ IsDigit c d) {cs : List Char}
    {n : Nat} : readDigits base value? 0 cs = some n ↔ Spells base IsDigit cs n := by
  constructor
  · intro h
    exact Spells.append_of_readDigits hv .nil h
  · intro h
    induction h with
    | nil => rfl
    | snoc _ hc ih =>
      rw [readDigits_append, ih, Option.bind_some, readDigits, (hv _ _).mpr hc]
      rfl

/-- A numeral spells only one number. -/
theorem Spells.unique (hv : ∀ c d, value? c = some d ↔ IsDigit c d) {cs : List Char} {m n : Nat}
    (hm : Spells base IsDigit cs m) (hn : Spells base IsDigit cs n) : m = n := by
  rw [← readDigits_eq_some_iff hv] at hm hn
  exact Option.some.inj (hm.symm.trans hn)

/-- A numeral of `w` digits spells a number below `base ^ w`. -/
theorem Spells.lt_pow (hlt : ∀ c d, IsDigit c d → d < base) {cs : List Char} {n : Nat}
    (h : Spells base IsDigit cs n) : n < base ^ cs.length := by
  induction h with
  | nil => exact Nat.one_pos
  | @snoc cs n c d _ hc ih =>
    have hd := hlt c d hc
    have hmul : base * (n + 1) ≤ base * base ^ cs.length := Nat.mul_le_mul_left base ih
    rw [List.length_append, List.length_singleton, Nat.pow_succ']
    rw [Nat.mul_add, Nat.mul_one] at hmul
    omega

end Reading

theorem readHex?_eq_some_iff {cs : List Char} {n : Nat} :
    readHex? cs = some n ↔ cs ≠ [] ∧ Spells 16 IsHexDigit cs n := by
  cases cs with
  | nil => simp [readHex?]
  | cons c cs => simp [readHex?, readDigits_eq_some_iff hexValue?_eq_some_iff]

theorem readDec?_eq_some_iff {cs : List Char} {n : Nat} :
    readDec? cs = some n ↔ cs ≠ [] ∧ Spells 10 IsDecDigit cs n := by
  cases cs with
  | nil => simp [readDec?]
  | cons c cs => simp [readDec?, readDigits_eq_some_iff decValue?_eq_some_iff]

/-! ## What is written -/

theorem isHexDigit_hexDigit (letters : LetterCase) {d : Nat} (h : d < 16) :
    IsHexDigit (hexDigit letters d) d := by
  cases letters
  · exact ⟨h, .inl rfl⟩
  · exact ⟨h, .inr rfl⟩

/-- The last digits of a number spell what is left of it. -/
theorem spells_writeHex_mod (letters : LetterCase) (width n : Nat) :
    Spells 16 IsHexDigit (writeHex letters width n) (n % 16 ^ width) := by
  induction width generalizing n with
  | zero =>
    rw [Nat.pow_zero, Nat.mod_one]
    exact .nil
  | succ w ih =>
    have hsnoc :=
      (ih (n / 16)).snoc (isHexDigit_hexDigit letters (Nat.mod_lt n (by decide : 0 < 16)))
    rwa [Nat.add_comm, ← Nat.mod_mul, ← Nat.pow_succ'] at hsnoc

theorem spells_writeHex (letters : LetterCase) {width n : Nat} (h : n < 16 ^ width) :
    Spells 16 IsHexDigit (writeHex letters width n) n := by
  have hmod := spells_writeHex_mod letters width n
  rwa [Nat.mod_eq_of_lt h] at hmod

/-- The digits of a number may be written in two parts. -/
theorem writeHex_add (letters : LetterCase) (v w n : Nat) :
    writeHex letters (v + w) n = writeHex letters v (n / 16 ^ w) ++ writeHex letters w n := by
  induction w generalizing n with
  | zero => simp [writeHex]
  | succ w ih =>
    rw [← Nat.add_assoc, writeHex, ih, writeHex, Nat.div_div_eq_div_mul, ← Nat.pow_succ',
      List.append_assoc]

theorem spells_writeDec {width n : Nat} (h : n < 10 ^ width) :
    Spells 10 IsDecDigit (writeDec width n) n := by
  induction width generalizing n with
  | zero =>
    have hn : n = 0 := by simpa using h
    rw [hn]
    exact .nil
  | succ w ih =>
    have hhigh : n / 10 < 10 ^ w := by
      rw [Nat.pow_succ'] at h
      exact Nat.div_lt_of_lt_mul h
    have hsnoc := (ih hhigh).snoc ⟨Nat.mod_lt n (by decide : 0 < 10), rfl⟩
    rwa [Nat.div_add_mod] at hsnoc

/-! ## Numerals in parts -/

section Parts

variable {base : Nat} {IsDigit : Char → Nat → Prop}

theorem value_snoc (cs : List Char) (c : Char) (m n d : Nat) :
    base ^ (cs ++ [c]).length * m + (base * n + d) = base * (base ^ cs.length * m + n) + d := by
  rw [List.length_append, List.length_singleton, Nat.pow_succ', Nat.mul_add, Nat.mul_assoc, Nat.add_assoc]

/-- A numeral that goes on counts its first part once for each number of as many more digits. -/
theorem Spells.append {as bs : List Char} {m n : Nat} (ha : Spells base IsDigit as m)
    (hb : Spells base IsDigit bs n) : Spells base IsDigit (as ++ bs) (base ^ bs.length * m + n) := by
  induction hb with
  | nil => simpa using ha
  | @snoc cs n c d _ hc ih =>
    rw [value_snoc, ← List.append_assoc]
    exact ih.snoc hc

/-- Both parts of a numeral are numerals. -/
theorem Spells.split {as bs : List Char} {n : Nat} (h : Spells base IsDigit (as ++ bs) n) :
    ∃ m k, Spells base IsDigit as m ∧ Spells base IsDigit bs k ∧ n = base ^ bs.length * m + k := by
  generalize hcs : as ++ bs = cs at h
  induction h generalizing bs with
  | nil =>
    obtain ⟨rfl, rfl⟩ := List.append_eq_nil_iff.mp hcs
    exact ⟨0, 0, .nil, .nil, rfl⟩
  | @snoc cs n c d hn hc ih =>
    -- The last digit is in the second part unless that part is empty.
    obtain rfl | ⟨ds, e, rfl⟩ := List.eq_nil_or_concat bs
    · rw [List.append_nil] at hcs
      subst hcs
      exact ⟨_, 0, hn.snoc hc, .nil, by simp⟩
    · rw [List.concat_eq_append, ← List.append_assoc] at hcs
      obtain ⟨hinit, hlast⟩ := List.append_inj' hcs rfl
      obtain rfl := List.singleton_inj.mp hlast
      obtain ⟨m, k, hm, hk, rfl⟩ := ih hinit
      rw [List.concat_eq_append, ← value_snoc]
      exact ⟨m, _, hm, hk.snoc hc, rfl⟩

end Parts

/-! ## Numerals that are written again -/

theorem toLower_of_isHexDigit {c : Char} {d : Nat} (h : IsHexDigit c d) : c.toLower = hexDigit .lower d := by
  obtain ⟨hd, rfl | rfl⟩ := h
  · revert d
    decide
  · revert d
    decide

/-- The number that a numeral spells is written as that numeral in lower case. -/
theorem Spells.map_toLower {cs : List Char} {n : Nat} (h : Spells 16 IsHexDigit cs n) :
    cs.map Char.toLower = writeHex .lower cs.length n := by
  induction h with
  | nil => rfl
  | @snoc cs n c d _ hc ih =>
    have hd : d < 16 := hc.1
    have hdiv : (16 * n + d) / 16 = n := by omega
    have hmod : (16 * n + d) % 16 = d := by omega
    rw [List.map_append, ih, List.length_append, List.length_singleton, writeHex, hdiv, hmod,
      List.map_singleton, toLower_of_isHexDigit hc]

/-- A decimal numeral is what is written for the number that it spells. -/
theorem Spells.eq_writeDec {cs : List Char} {n : Nat} (h : Spells 10 IsDecDigit cs n) :
    cs = writeDec cs.length n := by
  induction h with
  | nil => rfl
  | @snoc cs n c d _ hc ih =>
    obtain ⟨hd, rfl⟩ := hc
    have hdiv : (10 * n + d) / 10 = n := by omega
    have hmod : (10 * n + d) % 10 = d := by omega
    rw [List.length_append, List.length_singleton, writeDec, hdiv, hmod, ← ih]

theorem toLower_of_isDecDigit {c : Char} {d : Nat} (h : IsDecDigit c d) : c.toLower = c := by
  obtain ⟨hd, rfl⟩ := h
  revert d
  decide

/-- A decimal numeral has no capitals to lose. -/
theorem Spells.map_toLower_of_dec {cs : List Char} {n : Nat} (h : Spells 10 IsDecDigit cs n) :
    cs.map Char.toLower = cs := by
  induction h with
  | nil => rfl
  | snoc _ hc ih => rw [List.map_append, ih, List.map_singleton, toLower_of_isDecDigit hc]

/-! ## Numerals are ASCII -/

@[simp] theorem isAscii_nil : isAscii [] = true := rfl

@[simp] theorem isAscii_append (as bs : List Char) :
    isAscii (as ++ bs) = (isAscii as && isAscii bs) := List.all_append

theorem toNat_hexDigit_lt (letters : LetterCase) {d : Nat} (h : d < 16) :
    (hexDigit letters d).toNat < 128 := by
  cases letters
  · revert d
    decide
  · revert d
    decide

@[simp] theorem isAscii_writeHex (letters : LetterCase) (width n : Nat) :
    isAscii (writeHex letters width n) = true := by
  induction width generalizing n with
  | zero => rfl
  | succ w ih =>
    rw [writeHex, isAscii_append, ih, Bool.true_and, isAscii, List.all_cons, List.all_nil,
      Bool.and_true, decide_eq_true_eq]
    exact toNat_hexDigit_lt letters (Nat.mod_lt n (by decide))

theorem toNat_decDigit_lt {d : Nat} (h : d < 10) : (Char.ofNat (48 + d)).toNat < 128 := by
  revert d
  decide

@[simp] theorem isAscii_writeDec (width n : Nat) : isAscii (writeDec width n) = true := by
  induction width generalizing n with
  | zero => rfl
  | succ w ih =>
    rw [writeDec, isAscii_append, ih, Bool.true_and, isAscii, List.all_cons, List.all_nil,
      Bool.and_true, decide_eq_true_eq]
    exact toNat_decDigit_lt (Nat.mod_lt n (by decide))

/-- Whatever its digits are, a hexadecimal numeral is ASCII. -/
theorem Spells.isAscii {cs : List Char} {n : Nat} (h : Spells 16 IsHexDigit cs n) :
    isAscii cs = true := by
  induction h with
  | nil => rfl
  | snoc _ hc ih =>
    obtain ⟨hd, hc⟩ := hc
    rw [isAscii_append, ih, Bool.true_and, Text.isAscii, List.all_cons, List.all_nil,
      Bool.and_true, decide_eq_true_eq]
    obtain rfl | rfl := hc
    · exact toNat_hexDigit_lt .lower hd
    · exact toNat_hexDigit_lt .upper hd

end AlarmPanel.Text
