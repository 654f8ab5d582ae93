import AlarmPanel.Frame.Decode

/-!
# System events

What the panel reports on its own account: a type code, a zone in decimal and an area. The zone matters
for the events of zones, the area for those of areas.
-/

namespace AlarmPanel

/-- What happened. -/
inductive EventType
  | unsealed | sealed | alarm | alarmRestore | manualExclude | manualInclude | autoExclude
  | autoInclude | tamperUnsealed | tamperNormal
  | powerFailure | powerNormal | batteryFailure | batteryNormal | reportFailure | reportNormal
  | supervisionFailure | supervisionNormal | realTimeClock
  | entryDelayStart | entryDelayEnd | exitDelayStart | exitDelayEnd | armedAway | armedHome
  | armedDay | armedNight | armedVacation | armedHighest | disarmed | armingDelayed
  | outputOn | outputOff
  deriving DecidableEq, Repr

namespace EventType

def code : EventType → UInt8
  | .unsealed => 0x00
  | .sealed => 0x01
  | .alarm => 0x02
  | .alarmRestore => 0x03
  | .manualExclude => 0x04
  | .manualInclude => 0x05
  | .autoExclude => 0x06
  | .autoInclude => 0x07
  | .tamperUnsealed => 0x08
  | .tamperNormal => 0x09
  | .powerFailure => 0x10
  | .powerNormal => 0x11
  | .batteryFailure => 0x12
  | .batteryNormal => 0x13
  | .reportFailure => 0x14
  | .reportNormal => 0x15
  | .supervisionFailure => 0x16
  | .supervisionNormal => 0x17
  | .realTimeClock => 0x19
  | .entryDelayStart => 0x20
  | .entryDelayEnd => 0x21
  | .exitDelayStart => 0x22
  | .exitDelayEnd => 0x23
  | .armedAway => 0x24
  | .armedHome => 0x25
  | .armedDay => 0x26
  | .armedNight => 0x27
  | .armedVacation => 0x28
  | .armedHighest => 0x2e
  | .disarmed => 0x2f
  | .armingDelayed => 0x30
  | .outputOn => 0x31
  | .outputOff => 0x32

def all : List EventType :=
  [.unsealed, .sealed, .alarm, .alarmRestore, .manualExclude, .manualInclude, .autoExclude,
    .autoInclude, .tamperUnsealed, .tamperNormal, .powerFailure, .powerNormal, .batteryFailure,
    .batteryNormal, .reportFailure, .reportNormal, .supervisionFailure, .supervisionNormal,
    .realTimeClock, .entryDelayStart, .entryDelayEnd, .exitDelayStart, .exitDelayEnd, .armedAway,
    .armedHome, .armedDay, .armedNight, .armedVacation, .armedHighest, .disarmed, .armingDelayed,
    .outputOn, .outputOff]

def ofCode? (code : UInt8) : Option EventType := all.find? fun t => t.code == code

/-- The type that has the code, or the error that there is none. -/
def ofCode (code : UInt8) : Except Error EventType :=
  match ofCode? code with
  | some type => .ok type
  | none => .error (.unknownEventType code)

def label : EventType → String
  | .unsealed => "Unsealed"
  | .sealed => "Sealed"
  | .alarm => "Alarm"
  | .alarmRestore => "AlarmRestore"
  | .manualExclude => "ManualExclude"
  | .manualInclude => "ManualInclude"
  | .autoExclude => "AutoExclude"
  | .autoInclude => "AutoInclude"
  | .tamperUnsealed => "TamperUnsealed"
  | .tamperNormal => "TamperNormal"
  | .powerFailure => "PowerFailure"
  | .powerNormal => "PowerNormal"
  | .batteryFailure => "BatteryFailure"
  | .batteryNormal => "BatteryNormal"
  | .reportFailure => "ReportFailure"
  | .reportNormal => "ReportNormal"
  | .supervisionFailure => "SupervisionFailure"
  | .supervisionNormal => "SupervisionNormal"
  | .realTimeClock => "RealTimeClock"
  | .entryDelayStart => "EntryDelayStart"
  | .entryDelayEnd => "EntryDelayEnd"
  | .exitDelayStart => "ExitDelayStart"
  | .exitDelayEnd => "ExitDelayEnd"
  | .armedAway => "ArmedAway"
  | .armedHome => "ArmedHome"
  | .armedDay => "ArmedDay"
  | .armedNight => "ArmedNight"
  | .armedVacation => "ArmedVacation"
  | .armedHighest => "ArmedHighest"
  | .disarmed => "Disarmed"
  | .armingDelayed => "ArmingDelayed"
  | .outputOn => "OutputOn"
  | .outputOff => "OutputOff"

/-- Every type is listed. -/
theorem mem_all (t : EventType) : t ∈ all := by cases t <;> decide

/-- A code leads back to the type it came from. -/
theorem ofCode?_code (t : EventType) : ofCode? t.code = some t := by cases t <;> decide

end EventType

/-- An event that the panel reports. -/
structure SystemEvent where
  type : EventType
  zone : UInt8
  area : UInt8
  deriving DecidableEq, Repr

namespace SystemEvent

/-- A range of the payload's bytes. -/
def payloadField (payload : List Char) (start stop : Nat) : Except Error (List Char) :=
  match Text.byteRange? start stop payload with
  | some field => .ok field
  | none => .error (.format (.shortSystemEvent (String.ofList payload)))

/-- The event that a payload spells: type, zone in decimal, area. -/
def decode (payload : String) : Except Error SystemEvent := do
  let type ← EventType.ofCode (← readHexField (← payloadField payload.toList 0 2))
  let zone ← readDecField (← payloadField payload.toList 2 4)
  let area ← readHexField (← payloadField payload.toList 4 6)
  return { type, zone, area }

/-- The payload of the event. The zone has two decimal digits, so a zone above 99 has no payload. -/
def encode (e : SystemEvent) : Except Error String :=
  if e.zone > 99 then .error (.format (.zoneTooLarge e.zone))
  else .ok (String.ofList (Text.writeHex .lower 2 e.type.code.toNat ++
    Text.writeDec 2 e.zone.toNat ++ Text.writeHex .lower 2 e.area.toNat))

end SystemEvent

end AlarmPanel
