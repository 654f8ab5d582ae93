import AlarmPanel.Frame.Basic

/-!
# Frames on the wire: reading

The fields of a line are read from left to right; the first one that is missing or malformed decides the
error. The checksum has to be there, but is not compared.
-/

namespace AlarmPanel

/-! ## Fields -/

/-- The number that a field of one or two hexadecimal digits spells. -/
def readHexField (field : List Char) : Except Error UInt8 :=
  match Text.readHex? field with
  | some n => .ok (UInt8.ofNat n)
  | none => .error (.format (.notHexadecimal (String.ofList field)))

/-- The number that a field of two decimal digits spells. -/
def readDecField (field : List Char) : Except Error UInt8 :=
  match Text.readDec? field with
  | some n => .ok (UInt8.ofNat n)
  | none => .error (.format (.notDecimal (String.ofList field)))

/-- Splits off the next `n` characters of a line. -/
def takeField (n : Nat) (line : List Char) : Except Error (List Char × List Char) :=
  if n ≤ line.length then .ok (line.take n, line.drop n) else .error (.format .tooShort)

/-- Splits off the number that the next `n` hexadecimal digits spell. -/
def takeHexField (n : Nat) (line : List Char) : Except Error (UInt8 × List Char) := do
  let (field, rest) ← takeField n line
  let value ← readHexField field
  return (value, rest)

/-- The time that twelve digits spell, in the century of the year 2000. Panels may write minute 60 for
what happens on the hour; it stands for minute 0 of the next hour. -/
def readTimestamp (field : List Char) : Except Error Timestamp := do
  let number (i : Nat) := readDecField ((field.drop (2 * i)).take 2)
  let year ← number 0
  let month ← number 1
  let day ← number 2
  let hour ← number 3
  let minute ← number 4
  let second ← number 5
  let onTheHour := minute == 60
  match Timestamp.ofNumbers? (2000 + year.toNat) month.toNat day.toNat hour.toNat
      (if onTheHour then 0 else minute.toNat) second.toNat with
  | none => .error (.format (.badTimestamp (String.ofList field)))
  | some t => .ok (if onTheHour then t.nextHour else t)

/-! ## The line -/

namespace Frame

/-- Reads the address, if the line has one. -/
def takeAddress (start : UInt8) (lineLength : Nat) (line : List Char) :
    Except Error (Option UInt8 × List Char) :=
  if StartByte.hasAddress start lineLength then do
    let (address, rest) ← takeHexField (if StartByte.isRequest start then 1 else 2) line
    return (some address, rest)
  else .ok (none, line)

/-- Reads the timestamp, if the line has one. -/
def takeTimestamp (start : UInt8) (line : List Char) :
    Except Error (Option Timestamp × List Char) :=
  if StartByte.hasTimestamp start then do
    let (field, rest) ← takeField 12 line
    let timestamp ← readTimestamp field
    return (some timestamp, rest)
  else .ok (none, line)

/-- The frame that a line of ASCII characters spells. -/
def decodeFields (line : List Char) : Except Error Frame := do
  let (start, rest) ← takeHexField 2 line
  let (address, rest) ← takeAddress start line.length rest
  let (lengthField, rest) ← takeHexField 2 rest
  let (code, rest) ← takeHexField 2 rest
  let command ← FrameCommand.ofCode code
  let length := (lengthField &&& 0x7f).toNat
  let (data, rest) ← takeField (if StartByte.isRequest start then length else 2 * length) rest
  let (timestamp, rest) ← takeTimestamp start rest
  let (_, rest) ← takeHexField 2 rest
  if rest.isEmpty then
    return { address, seq := lengthField >>> 7, command, data := String.ofList data, timestamp,
             isResponse := StartByte.isResponse start && command == .userInterface }
  else .error (.format (.trailing rest.length))

/-- The frame that a line, without its line end, spells. -/
def decode (line : String) : Except Error Frame :=
  if Text.isAscii line.toList then decodeFields line.toList else .error (.format .notAscii)

end Frame

end AlarmPanel
