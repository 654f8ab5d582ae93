import AlarmPanel.Frame.Encode
import AlarmPanel.Status.Update

/-!
# What the client sends

Users' commands are literal text in a request frame, one frame to a line. The length field of a frame
bounds that text, and a status request names the status by the two digits of its code.
-/

namespace AlarmPanel

/-- The most bytes that the text of a command may take. -/
def longestCommand : Nat := 127

/-- The line that carries a command, with its line end. -/
def requestLine (command : String) : String := (Frame.request command).encode ++ lineEnd

/-- The line that carries a command, if the command is not too long. -/
def requestLine? (command : String) : Except Error String :=
  let bytes := Text.byteLength command.toList
  if longestCommand < bytes then .error (.invalidArgument (.commandTooLong bytes))
  else .ok (requestLine command)

/-- The number that two hexadecimal digits spell, or a plus sign and one digit. -/
def readSignedHexPair? : List Char → Option Nat
  | ['+', digit] => Text.readHex? [digit]
  | [high, low] => Text.readHex? [high, low]
  | _ => none

/-- The code that a status request asks for: the letter S and a number of two characters. -/
def statusCode (command : String) : Except Error UInt8 :=
  let refused : Except Error UInt8 := .error (.invalidArgument (.noStatusRequest command))
  match command.toList with
  | 'S' :: digits =>
    match readSignedHexPair? digits with
    | some code => .ok (UInt8.ofNat code)
    | none => refused
  | _ => refused

/-! ## The texts of the commands -/

def armAwayCommand (code : Option String) : String := "A" ++ code.getD "" ++ "E"

def armHomeCommand (code : Option String) : String := "H" ++ code.getD "" ++ "E"

def disarmCommand (code : String) : String := code ++ "E"

def panicCommand (code : String) : String := "*" ++ code ++ "#"

/-- The command that switches an auxiliary output: its number twice, and a star for on or a hash for
off. -/
def switchCommand (number : UInt8) (on : Bool) : Except Error String :=
  if 1 ≤ number.toNat ∧ number.toNat ≤ auxOutputCount then
    let digit := toString number.toNat
    .ok (digit ++ digit ++ if on then "*" else "#")
  else .error (.invalidArgument (.auxOutputOutOfRange number))

/-- What the client asks for to bring the alarm up to date: both banks of zones, and the arming. -/
def updateCommands : List String :=
  [RequestId.command (.zone .lower .inputUnsealed), RequestId.command (.zone .upper .inputUnsealed),
    RequestId.command .arming]

example : updateCommands = ["S00", "S20", "S14"] := by decide +kernel

end AlarmPanel
