import AlarmPanel.Frame.Decode
import AlarmPanel.Status.Flags

/-!
# Status updates

The panel answers a status request with the request's code and four more digits: a word of flags, a view
state, or the model and version of the panel. Reading drops undeclared flags and takes no notice of what
follows the digits.
-/

namespace AlarmPanel

/-- What the keypads show. -/
inductive ViewState
  | normal | briefDayChime | home | memory | briefDayZoneSelect | excludeSelect | userProgram
  | installerProgram
  deriving DecidableEq, Repr

namespace ViewState

def value : ViewState → UInt16
  | .normal => 0xf000
  | .briefDayChime => 0xe000
  | .home => 0xd000
  | .memory => 0xc000
  | .briefDayZoneSelect => 0xb000
  | .excludeSelect => 0xa000
  | .userProgram => 0x9000
  | .installerProgram => 0x8000

def all : List ViewState :=
  [.normal, .briefDayChime, .home, .memory, .briefDayZoneSelect, .excludeSelect, .userProgram,
    .installerProgram]

/-- The view state that has the value. -/
def ofValue (value : UInt16) : Except Error ViewState :=
  match all.find? fun v => v.value == value with
  | some v => .ok v
  | none => .error (.format (.unknownViewState value))

def label : ViewState → String
  | .normal => "Normal"
  | .briefDayChime => "BriefDayChime"
  | .home => "Home"
  | .memory => "Memory"
  | .briefDayZoneSelect => "BriefDayZoneSelect"
  | .excludeSelect => "ExcludeSelect"
  | .userProgram => "UserProgram"
  | .installerProgram => "InstallerProgram"

end ViewState

/-- The hardware models of the panel. -/
inductive PanelModel
  | d16x | d16x3G | d16xCel
  deriving DecidableEq, Repr

namespace PanelModel

def code : PanelModel → UInt8
  | .d16x => 0x00
  | .d16x3G => 0x04
  | .d16xCel => 0x14

def all : List PanelModel := [.d16x, .d16x3G, .d16xCel]

/-- The model that has the code. -/
def ofCode (code : UInt8) : Except Error PanelModel :=
  match all.find? fun m => m.code == code with
  | some m => .ok m
  | none => .error (.format (.unknownPanelModel code))

def label : PanelModel → String
  | .d16x => "D16x"
  | .d16x3G => "D16x3G"
  | .d16xCel => "D16xCel"

/-- The model that has the label. -/
def ofLabel? (label : String) : Option PanelModel := all.find? fun m => m.label == label

end PanelModel

/-- An answer to a status request. -/
inductive StatusUpdate
  | zone (bank : ZoneBank) (condition : ZoneCondition) (zones : FlagSet BankZone)
  | arming (status : FlagSet ArmingFlag)
  | miscAlarms (alarms : FlagSet MiscAlarm)
  | outputs (flags : FlagSet Output)
  | viewState (state : ViewState)
  | panelVersion (model : PanelModel) (major minor : UInt8)
  | auxOutputs (flags : FlagSet AuxOutput)
  deriving DecidableEq, Repr

/-- A panel version in the usual way of writing it. -/
def showVersion (major minor : UInt8) : String :=
  toString major.toNat ++ "." ++ toString minor.toNat

/-- The numbers, from 1 to 32, of the zones that a word for the bank includes. -/
def ZoneBank.zoneNumbers (bank : ZoneBank) (zones : FlagSet BankZone) : List Nat :=
  zones.toList.map fun z => z.number + bank.firstZone - 1

namespace StatusUpdate

/-- The request that the update answers. -/
def request : StatusUpdate → RequestId
  | .zone bank condition _ => .zone bank condition
  | .arming _ => .arming
  | .miscAlarms _ => .miscAlarms
  | .outputs _ => .outputs
  | .viewState _ => .viewState
  | .panelVersion _ _ _ => .panelVersion
  | .auxOutputs _ => .auxOutputs

/-! ## Reading -/

/-- The number in a range of the payload's bytes. -/
def payloadField (payload : List Char) (start stop : Nat) : Except Error UInt8 :=
  match Text.byteRange? start stop payload with
  | some field => readHexField field
  | none => .error (.format (.shortStatusUpdate (String.ofList payload)))

/-- The sixteen-bit word after the request code, high byte first. -/
def payloadWord (payload : List Char) : Except Error UInt16 := do
  let high ← payloadField payload 2 4
  let low ← payloadField payload 4 6
  return UInt16.ofNat (256 * high.toNat + low.toNat)

/-- The update that a payload of the given request spells. -/
def decodeFor (payload : List Char) : RequestId → Except Error StatusUpdate
  | .zone bank condition => do
    return .zone bank condition (FlagSet.declared (← payloadWord payload))
  | .arming => do return .arming (FlagSet.declared (← payloadWord payload))
  | .miscAlarms => do return .miscAlarms (FlagSet.declared (← payloadWord payload))
  | .outputs => do return .outputs (FlagSet.declared (← payloadWord payload))
  | .viewState => do return .viewState (← ViewState.ofValue (← payloadWord payload))
  | .panelVersion => do
    let model ← PanelModel.ofCode (← payloadField payload 2 4)
    let major ← payloadField payload 4 5
    let minor ← payloadField payload 5 6
    return .panelVersion model major minor
  | .auxOutputs => do return .auxOutputs (FlagSet.declared (← payloadWord payload))

/-- The request that has the code, or the error that there is none. -/
def requestOfCode (code : UInt8) : Except Error RequestId :=
  match RequestId.ofCode? code with
  | some request => .ok request
  | none => .error (.unknownRequestId code)

/-- The update that a payload spells. -/
def decode (payload : String) : Except Error StatusUpdate := do
  let request ← requestOfCode (← payloadField payload.toList 0 2)
  decodeFor payload.toList request

/-! ## Writing -/

/-- The four digits after the request code. A version part has only one digit. -/
def valueDigits : StatusUpdate → List Char
  | .zone _ _ zones => Text.writeHex .lower 4 zones.bits.toNat
  | .arming status => Text.writeHex .lower 4 status.bits.toNat
  | .miscAlarms alarms => Text.writeHex .lower 4 alarms.bits.toNat
  | .outputs flags => Text.writeHex .lower 4 flags.bits.toNat
  | .viewState state => Text.writeHex .lower 4 state.value.toNat
  | .panelVersion model major minor =>
    Text.writeHex .lower 2 model.code.toNat ++ Text.writeHex .lower 1 (major &&& 0x0f).toNat ++
      Text.writeHex .lower 1 (minor &&& 0x0f).toNat
  | .auxOutputs flags => Text.writeHex .lower 4 flags.bits.toNat

/-- The payload of the update. -/
def encode (u : StatusUpdate) : String :=
  String.ofList (Text.writeHex .lower 2 u.request.code.toNat ++ u.valueDigits)

end StatusUpdate

end AlarmPanel
