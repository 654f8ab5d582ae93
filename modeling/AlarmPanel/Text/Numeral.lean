/-!
# Numerals of fixed width

Frames spell numbers as hexadecimal or decimal digits of a fixed width. Reading takes both cases of the
hexadecimal letters; writing uses the case that the caller names.
-/

namespace AlarmPanel.Text

/-- Which letters stand for the hexadecimal digits from ten on. -/
inductive LetterCase
  | lower
  | upper
  deriving DecidableEq, Repr

/-- The value of a hexadecimal digit, in either case. -/
def hexValue? (c : Char) : Option Nat :=
  if '0' ≤ c ∧ c ≤ '9' then some (c.toNat - 48)
  else if 'a' ≤ c ∧ c ≤ 'f' then some (c.toNat - 87)
  else if 'A' ≤ c ∧ c ≤ 'F' then some (c.toNat - 55)
  else none

/-- The value of a decimal digit. -/
def decValue? (c : Char) : Option Nat :=
  if '0' ≤ c ∧ c ≤ '9' then some (c.toNat - 48) else none

/-- The number that the digits spell, most significant first, each valued by `value?`. -/
def readDigits (base : Nat) (value? : Char → Option Nat) : Nat → List Char → Option Nat
  | acc, [] => some acc
  | acc, c :: cs => (value? c).bind fun d => readDigits base value? (base * acc + d) cs

/-- The number that one or more hexadecimal digits spell. -/
def readHex? : List Char → Option Nat
  | [] => none
  | cs => readDigits 16 hexValue? 0 cs

/-- The number that one or more decimal digits spell. -/
def readDec? : List Char → Option Nat
  | [] => none
  | cs => readDigits 10 decValue? 0 cs

/-- The hexadecimal digit of a value below sixteen. -/
def hexDigit (letters : LetterCase) (n : Nat) : Char :=
  if n < 10 then Char.ofNat (48 + n)
  else match letters with
    | .lower => Char.ofNat (87 + n)
    | .upper => Char.ofNat (55 + n)

/-- The last `width` hexadecimal digits of a number. -/
def writeHex (letters : LetterCase) : Nat → Nat → List Char
  | 0, _ => []
  | width + 1, n => writeHex letters width (n / 16) ++ [hexDigit letters (n % 16)]

/-- The last `width` decimal digits of a number. -/
def writeDec : Nat → Nat → List Char
  | 0, _ => []
  | width + 1, n => writeDec width (n / 10) ++ [Char.ofNat (48 + n % 10)]

@[simp] theorem length_writeHex (letters : LetterCase) (width n : Nat) :
    (writeHex letters width n).length = width := by
  induction width generalizing n with
  | zero => rfl
  | succ w ih => simp [writeHex, ih]

@[simp] theorem length_writeDec (width n : Nat) : (writeDec width n).length = width := by
  induction width generalizing n with
  | zero => rfl
  | succ w ih => simp [writeDec, ih]

end AlarmPanel.Text
