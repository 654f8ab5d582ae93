import AlarmPanel.Text.Numeral

/-!
# Status requests

A status request names what it asks for by one byte. The zone conditions exist once for each of the two
banks, and the code of the second bank lies 0x20 above that of the first.
-/

namespace AlarmPanel

/-- A bank of sixteen zones. -/
inductive ZoneBank
  | lower
  | upper
  deriving DecidableEq, Repr

namespace ZoneBank

/-- The number of the bank's first zone. -/
def firstZone : ZoneBank → Nat
  | .lower => 1
  | .upper => 17

/-- What the bank adds to the code of a zone condition. -/
def offset : ZoneBank → UInt8
  | .lower => 0x00
  | .upper => 0x20

def label : ZoneBank → String
  | .lower => "Zones1To16"
  | .upper => "Zones17To32"

end ZoneBank

/-- A condition that zones can be asked for. -/
inductive ZoneCondition
  | inputUnsealed | radioUnsealed | cbusUnsealed | inDelay | inDoubleTrigger | inAlarm | excluded
  | autoExcluded | supervisionFailPending | supervisionFail | doorsOpen | detectorLowBattery
  | detectorTamper
  deriving DecidableEq, Repr

namespace ZoneCondition

def code : ZoneCondition → UInt8
  | .inputUnsealed => 0x00
  | .radioUnsealed => 0x01
  | .cbusUnsealed => 0x02
  | .inDelay => 0x03
  | .inDoubleTrigger => 0x04
  | .inAlarm => 0x05
  | .excluded => 0x06
  | .autoExcluded => 0x07
  | .supervisionFailPending => 0x08
  | .supervisionFail => 0x09
  | .doorsOpen => 0x10
  | .detectorLowBattery => 0x11
  | .detectorTamper => 0x12

def all : List ZoneCondition :=
  [.inputUnsealed, .radioUnsealed, .cbusUnsealed, .inDelay, .inDoubleTrigger, .inAlarm, .excluded,
    .autoExcluded, .supervisionFailPending, .supervisionFail, .doorsOpen, .detectorLowBattery,
    .detectorTamper]

/-- The condition that has the code. -/
def ofCode? (code : UInt8) : Option ZoneCondition := all.find? fun c => c.code == code

def label : ZoneCondition → String
  | .inputUnsealed => "InputUnsealed"
  | .radioUnsealed => "RadioUnsealed"
  | .cbusUnsealed => "CbusUnsealed"
  | .inDelay => "InDelay"
  | .inDoubleTrigger => "InDoubleTrigger"
  | .inAlarm => "InAlarm"
  | .excluded => "Excluded"
  | .autoExcluded => "AutoExcluded"
  | .supervisionFailPending => "SupervisionFailPending"
  | .supervisionFail => "SupervisionFail"
  | .doorsOpen => "DoorsOpen"
  | .detectorLowBattery => "DetectorLowBattery"
  | .detectorTamper => "DetectorTamper"

end ZoneCondition

/-- What a status request asks for, and the first byte of its answer. -/
inductive RequestId
  | zone (bank : ZoneBank) (condition : ZoneCondition)
  | miscAlarms
  | arming
  | outputs
  | viewState
  | panelVersion
  | auxOutputs
  deriving DecidableEq, Repr

namespace RequestId

def code : RequestId → UInt8
  | .zone bank condition => bank.offset + condition.code
  | .miscAlarms => 0x13
  | .arming => 0x14
  | .outputs => 0x15
  | .viewState => 0x16
  | .panelVersion => 0x17
  | .auxOutputs => 0x18

def all : List RequestId :=
  ZoneCondition.all.map (.zone .lower) ++
    [.miscAlarms, .arming, .outputs, .viewState, .panelVersion, .auxOutputs] ++
    ZoneCondition.all.map (.zone .upper)

/-- The request that has the code. -/
def ofCode? (code : UInt8) : Option RequestId := all.find? fun r => r.code == code

/-- The command that asks the panel for this status. -/
def command (r : RequestId) : String :=
  String.ofList ('S' :: Text.writeHex .upper 2 r.code.toNat)

def label : RequestId → String
  | .zone bank condition => s!"Zone({bank.label}, {condition.label})"
  | .miscAlarms => "MiscellaneousAlarms"
  | .arming => "Arming"
  | .outputs => "Outputs"
  | .viewState => "ViewState"
  | .panelVersion => "PanelVersion"
  | .auxOutputs => "AuxiliaryOutputs"

/-- Every request is listed. -/
theorem mem_all (r : RequestId) : r ∈ all := by
  rcases r with ⟨bank, condition⟩ | _ | _ | _ | _ | _ | _
  · cases bank <;> cases condition <;> decide
  all_goals decide

/-- A code leads back to the request it came from: no two requests share one. -/
theorem ofCode?_code (r : RequestId) : ofCode? r.code = some r := by
  rcases r with ⟨bank, condition⟩ | _ | _ | _ | _ | _ | _
  · cases bank <;> cases condition <;> decide
  all_goals decide

/-- Only the request's own code leads to it. -/
theorem code_of_ofCode? {code : UInt8} {r : RequestId} (h : ofCode? code = some r) :
    r.code = code := by
  have := List.find?_some h
  exact eq_of_beq this

end RequestId

end AlarmPanel
