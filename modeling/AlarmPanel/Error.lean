import AlarmPanel.Status.Request

/-!
# Errors

Every failure is a value that says what went wrong; `Error.message` gives its wording, and
`Error.ofLine` and `Error.passing` sort the failures into those that come from a line of the panel and
those that a new attempt may mend.
-/

namespace AlarmPanel

/-- What can be wrong with the text of a frame or of its payload. -/
inductive FormatFault
  | notAscii
  | tooShort
  | notHexadecimal (field : String)
  | notDecimal (field : String)
  | badTimestamp (field : String)
  | trailing (count : Nat)
  | shortStatusUpdate (payload : String)
  | shortSystemEvent (payload : String)
  | unknownViewState (value : UInt16)
  | unknownPanelModel (code : UInt8)
  | zoneTooLarge (zone : UInt8)
  | other (details : String)
  deriving DecidableEq, Repr

/-- What can be wrong with an argument of a command. -/
inductive ArgumentFault
  | commandTooLong (bytes : Nat)
  | auxOutputOutOfRange (number : UInt8)
  | noStatusRequest (command : String)
  | noSuchZone (number : UInt8) (zones : Nat)
  | noSuchAuxOutput (number : UInt8)
  | other (details : String)
  deriving DecidableEq, Repr

/-- How an answer can differ from what was asked for. -/
inductive ResponseFault
  | noPanelVersion (got : RequestId)
  | noAuxOutputs (got : RequestId)
  | other (details : String)
  deriving DecidableEq, Repr

inductive Error
  | format (fault : FormatFault)
  | unknownCommand (code : UInt8)
  | unknownEventType (code : UInt8)
  | unknownRequestId (code : UInt8)
  | connection (reason : String)
  | io (reason : String)
  | invalidArgument (fault : ArgumentFault)
  | commandTimeout (command : String)
  | unexpectedResponse (fault : ResponseFault)
  | closed
  deriving DecidableEq, Repr

/-- A code in the way the messages show it. -/
def showCode (width n : Nat) : String :=
  "0x" ++ String.ofList (Text.writeHex .lower width n)

def FormatFault.message : FormatFault → String
  | .notAscii => "frame contains non-ASCII characters"
  | .tooShort => "unable to take more data than exists"
  | .notHexadecimal field => "'" ++ field ++ "' is not hexadecimal"
  | .notDecimal field => "'" ++ field ++ "' is not decimal"
  | .badTimestamp field => "invalid timestamp '" ++ field ++ "'"
  | .trailing count => toString count ++ " trailing characters after checksum"
  | .shortStatusUpdate payload => "status update payload too short: '" ++ payload ++ "'"
  | .shortSystemEvent payload => "system status payload too short: '" ++ payload ++ "'"
  | .unknownViewState value => "unknown view state " ++ showCode 4 value.toNat
  | .unknownPanelModel code => "unknown panel model " ++ showCode 2 code.toNat
  | .zoneTooLarge zone =>
    "zone " ++ toString zone.toNat ++ " does not fit the two digit zone field"
  | .other details => details

def ArgumentFault.message : ArgumentFault → String
  | .commandTooLong bytes => "command of " ++ toString bytes ++ " characters exceeds 127"
  | .auxOutputOutOfRange number =>
    "aux output " ++ toString number.toNat ++ " out of range 1..=8"
  | .noStatusRequest command => "'" ++ command ++ "' is not a status request"
  | .noSuchZone number zones =>
    "zone " ++ toString number.toNat ++ " out of range 1..=" ++ toString zones
  | .noSuchAuxOutput number => "aux output " ++ toString number.toNat ++ " out of range"
  | .other details => details

def ResponseFault.message : ResponseFault → String
  | .noPanelVersion got => "expected panel version, got " ++ got.label
  | .noAuxOutputs got => "expected auxiliary outputs, got " ++ got.label
  | .other details => details

namespace Error

def message : Error → String
  | .format fault => "Malformed frame: " ++ fault.message
  | .unknownCommand code => "Unknown command: " ++ showCode 2 code.toNat
  | .unknownEventType code => "Unknown event type: " ++ showCode 2 code.toNat
  | .unknownRequestId code => "Unknown request id: " ++ showCode 2 code.toNat
  | .connection reason => "Connection failed: " ++ reason
  | .io reason => "I/O error: " ++ reason
  | .invalidArgument fault => "Invalid argument: " ++ fault.message
  | .commandTimeout command => "Command timeout: " ++ command
  | .unexpectedResponse fault => "Unexpected response: " ++ fault.message
  | .closed => "Client closed"

/-- Whether the error comes from a line that the panel sent. Such lines are left out of account. -/
def ofLine : Error → Bool
  | .format _ | .unknownCommand _ | .unknownEventType _ | .unknownRequestId _ => true
  | _ => false

/-- Whether the error may pass, so that connecting again is worth while. -/
def passing : Error → Bool
  | .connection _ | .io _ => true
  | _ => false

end Error

example : (Error.unknownCommand 0x70).message = "Unknown command: 0x70" := by decide

end AlarmPanel
