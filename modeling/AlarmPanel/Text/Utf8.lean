/-!
# UTF-8

Bytes are read as characters piece by piece: a piece is a whole character, or a longest run of bytes
that could begin a character and does not. A strict reader refuses such a run, a lenient one writes
the replacement character in its place.
-/

namespace AlarmPanel.Text

/-- A character of which some bytes have been read: the value so far, how many bytes are to come, and
the range that the next of them has to lie in. -/
structure OpenChar where
  value : Nat
  left : Nat
  low : Nat
  high : Nat
  deriving DecidableEq, Repr

/-- What a byte at the start of a piece says about it. -/
inductive LeadByte
  | whole (c : Char)
  | opens (part : OpenChar)
  | stray
  deriving DecidableEq, Repr

/-- The first byte of a piece fixes its length, and for the second byte it leaves out the overlong
forms, the surrogates and what lies beyond the last code point. -/
def leadByte (b : UInt8) : LeadByte :=
  let n := b.toNat
  if n < 0x80 then .whole (Char.ofNat n)
  else if n < 0xc2 then .stray
  else if n < 0xe0 then .opens ⟨n - 0xc0, 1, 0x80, 0xbf⟩
  else if n < 0xf0 then
    .opens ⟨n - 0xe0, 2, if n = 0xe0 then 0xa0 else 0x80, if n = 0xed then 0x9f else 0xbf⟩
  else if n < 0xf5 then
    .opens ⟨n - 0xf0, 3, if n = 0xf0 then 0x90 else 0x80, if n = 0xf4 then 0x8f else 0xbf⟩
  else .stray

/-- The open character with one more byte, if that byte may come next. -/
def OpenChar.extend? (part : OpenChar) (b : UInt8) : Option OpenChar :=
  if part.low ≤ b.toNat ∧ b.toNat ≤ part.high then
    some ⟨part.value * 64 + (b.toNat - 0x80), part.left - 1, 0x80, 0xbf⟩
  else none

/-- The pieces of a byte string, after the bytes of `part`: characters, and `none` for each run of
bytes that is none. -/
def utf8Pieces : Option OpenChar → List UInt8 → List (Option Char)
  | none, [] => []
  | some _, [] => [none]
  | part, b :: bs =>
    match part.bind (·.extend? b) with
    | some longer =>
      if longer.left = 0 then some (Char.ofNat longer.value) :: utf8Pieces none bs
      else utf8Pieces (some longer) bs
    | none =>
      let broken : List (Option Char) := if part.isSome then [none] else []
      match leadByte b with
      | .whole c => broken ++ some c :: utf8Pieces none bs
      | .opens first => broken ++ utf8Pieces (some first) bs
      | .stray => broken ++ none :: utf8Pieces none bs

/-- The text that the bytes spell, if all of them belong to characters. -/
def decodeUtf8? (bytes : List UInt8) : Option (List Char) :=
  (utf8Pieces none bytes).mapM id

/-- The text that the bytes spell, with the replacement character for what spells none. -/
def decodeUtf8Lossy (bytes : List UInt8) : List Char :=
  (utf8Pieces none bytes).map (·.getD (Char.ofNat 0xfffd))

/-- The bytes that spell a text. -/
def encodeUtf8 (cs : List Char) : List UInt8 := cs.flatMap String.utf8EncodeChar

example : decodeUtf8? [0xc3, 0xa9] = some ['é'] := by decide

example : decodeUtf8Lossy [0x41, 0xe2, 0x82, 0x42] = ['A', Char.ofNat 0xfffd, 'B'] := by decide

end AlarmPanel.Text
