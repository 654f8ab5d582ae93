import AlarmPanel.Frame.Basic

/-!
# Frames on the wire: writing

A line is the frame's fields in order, in lower case, and a checksum in upper case that brings the sum of
all bytes to a multiple of 256.
-/

namespace AlarmPanel

/-- What ends a line on the wire. -/
def lineEnd : String := "\r\n"

/-- The time as twelve digits: year without its century, month, day, hour, minute, second. -/
def Timestamp.digits (t : Timestamp) : List Char :=
  Text.writeDec 2 (t.date.year % 100).toNat ++ Text.writeDec 2 t.date.month ++
    Text.writeDec 2 t.date.day ++ Text.writeDec 2 t.hour ++ Text.writeDec 2 t.minute ++
    Text.writeDec 2 t.second

/-- The sum of the UTF-8 bytes of a text, modulo 256. -/
def byteSum (cs : List Char) : UInt8 := (cs.flatMap String.utf8EncodeChar).foldl (· + ·) 0

/-- What has to be added to the bytes of a text to make their sum a multiple of 256. -/
def checksumOf (cs : List Char) : UInt8 := 0 - byteSum cs

namespace Frame

/-- The address field: one digit in a request frame, else two. -/
def addressField (f : Frame) : List Char :=
  match f.address with
  | none => []
  | some a =>
    if StartByte.isRequest f.start then Text.writeHex .lower 1 (a &&& 0x0f).toNat
    else Text.writeHex .lower 2 a.toNat

/-- The line up to the checksum. -/
def body (f : Frame) : List Char :=
  Text.writeHex .lower 2 f.start.toNat ++ f.addressField ++
    Text.writeHex .lower 2 f.lengthField.toNat ++ Text.writeHex .lower 2 f.command.code.toNat ++
    f.data.toList ++ (f.timestamp.elim [] Timestamp.digits)

def checksum (f : Frame) : UInt8 := checksumOf f.body

/-- The line of the frame, without its line end. -/
def encode (f : Frame) : String :=
  String.ofList (f.body ++ Text.writeHex .upper 2 f.checksum.toNat)

end Frame

example : (Frame.request "S14").encode = "8300360S14E4" := by decide +kernel

end AlarmPanel
