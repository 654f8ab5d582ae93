import AlarmPanel.Calendar
import AlarmPanel.Error
import AlarmPanel.Text.Bytes

/-!
# Frames

A frame is one line on the wire. Its first byte, the start byte, says which optional fields follow. User
commands travel in request frames, whose address takes one digit and whose payload is literal text; in all
other frames a byte takes two digits.
-/

namespace AlarmPanel

/-- What a frame is for: a user's command or its answer, or an event that the panel reports. -/
inductive FrameCommand
  | userInterface
  | systemStatus
  deriving DecidableEq, Repr

namespace FrameCommand

def code : FrameCommand → UInt8
  | .userInterface => 0x60
  | .systemStatus => 0x61

def ofCode? (code : UInt8) : Option FrameCommand :=
  if code = 0x60 then some .userInterface
  else if code = 0x61 then some .systemStatus
  else none

/-- The command that has the code, or the error that there is none. -/
def ofCode (code : UInt8) : Except Error FrameCommand :=
  match ofCode? code with
  | some command => .ok command
  | none => .error (.unknownCommand code)

def label : FrameCommand → String
  | .userInterface => "UserInterface"
  | .systemStatus => "SystemStatus"

end FrameCommand

/-! ## The start byte -/

namespace StartByte

/-- The bits that every start byte of ours has. -/
def base : UInt8 := 0x82

def addressBit : UInt8 := 0x01

def timestampBit : UInt8 := 0x04

/-- The start byte of a request frame. -/
def request : UInt8 := 0x83

/-- The start byte of an answer to a request. -/
def response : UInt8 := 0x82

/-- Some answers carry an address although the address bit is clear; only the length of their line,
sixteen characters, shows it. -/
def addressedResponseLength : Nat := 16

def hasAddress (start : UInt8) (lineLength : Nat) : Bool :=
  start &&& addressBit != 0 || (start == response && lineLength == addressedResponseLength)

def hasTimestamp (start : UInt8) : Bool := start &&& timestampBit != 0

def isRequest (start : UInt8) : Bool := start == request

def isResponse (start : UInt8) : Bool := start == response

end StartByte

/-- One frame, as its fields. -/
structure Frame where
  address : Option UInt8
  seq : UInt8
  command : FrameCommand
  data : String
  timestamp : Option Timestamp
  /-- Whether this is the panel's answer to a user's command. -/
  isResponse : Bool
  deriving DecidableEq

namespace Frame

/-- The request frame that carries a user's command as literal text. -/
def request (command : String) : Frame :=
  { address := some 0, seq := 0, command := .userInterface, data := command, timestamp := none,
    isResponse := false }

/-- The start byte that the optional fields call for. An answer never sets the address bit. -/
def start (f : Frame) : UInt8 :=
  let withAddress :=
    if f.address.isSome && !f.isResponse then StartByte.base ||| StartByte.addressBit
    else StartByte.base
  if f.timestamp.isSome then withAddress ||| StartByte.timestampBit else withAddress

/-- The length of the payload: bytes of text in a request frame, coded bytes in any other. -/
def length (f : Frame) : Nat :=
  let bytes := Text.byteLength f.data.toList
  if StartByte.isRequest f.start then bytes else bytes / 2

/-- The byte that holds the length in seven bits and the sequence number in one. -/
def lengthField (f : Frame) : UInt8 :=
  UInt8.ofNat (f.length % 128) ||| (f.seq &&& (0x01 : UInt8)) <<< (7 : UInt8)

end Frame

end AlarmPanel
