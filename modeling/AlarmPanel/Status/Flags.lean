import AlarmPanel.Status.FlagSet

/-!
# The flags of the panel's status words

Each kind of status word has its own conditions. The high byte comes first on the wire, so the first
eight conditions of a list stand in the high byte of the word and the others in the low byte.
-/

namespace AlarmPanel

/-- A zone's place in a bank of sixteen. -/
structure BankZone where
  place : Fin 16
  deriving DecidableEq, Repr

namespace BankZone

/-- The bit of a place: the first eight places fill the high byte, the others the low byte. -/
def mask (z : BankZone) : UInt16 :=
  if z.place.val < 8 then 0x0100 <<< UInt16.ofNat z.place.val
  else 0x0001 <<< UInt16.ofNat (z.place.val - 8)

/-- The zone at a number counted from one. -/
def ofNumber? (n : Nat) : Option BankZone :=
  if h : 1 ≤ n ∧ n ≤ 16 then some ⟨⟨n - 1, by omega⟩⟩ else none

/-- The number of the zone, counted from one. -/
def number (z : BankZone) : Nat := z.place.val + 1

instance : Flag BankZone where
  all := (List.finRange 16).map BankZone.mk
  mask := mask
  label z := s!"ZONE_{z.number}"

end BankZone

/-- Conditions that raise an alarm or a warning without a zone. -/
inductive MiscAlarm
  | duress | panic | medical | fire | installEnd | externalTamper | panelTamper | keypadTamper
  | pendantPanic | panelBatteryLow | panelBatteryLowTwo | mainsFail | cbusFail
  deriving DecidableEq, Repr

instance : Flag MiscAlarm where
  all := [.duress, .panic, .medical, .fire, .installEnd, .externalTamper, .panelTamper, .keypadTamper,
    .pendantPanic, .panelBatteryLow, .panelBatteryLowTwo, .mainsFail, .cbusFail]
  mask
    | .duress => 0x0100
    | .panic => 0x0200
    | .medical => 0x0400
    | .fire => 0x0800
    | .installEnd => 0x1000
    | .externalTamper => 0x2000
    | .panelTamper => 0x4000
    | .keypadTamper => 0x8000
    | .pendantPanic => 0x0001
    | .panelBatteryLow => 0x0002
    | .panelBatteryLowTwo => 0x0004
    | .mainsFail => 0x0008
    | .cbusFail => 0x0010
  label
    | .duress => "DURESS"
    | .panic => "PANIC"
    | .medical => "MEDICAL"
    | .fire => "FIRE"
    | .installEnd => "INSTALL_END"
    | .externalTamper => "EXT_TAMPER"
    | .panelTamper => "PANEL_TAMPER"
    | .keypadTamper => "KEYPAD_TAMPER"
    | .pendantPanic => "PENDANT_PANIC"
    | .panelBatteryLow => "PANEL_BATTERY_LOW"
    | .panelBatteryLowTwo => "PANEL_BATTERY_LOW2"
    | .mainsFail => "MAINS_FAIL"
    | .cbusFail => "CBUS_FAIL"

/-- How far the areas are armed. -/
inductive ArmingFlag
  | areaOneArmed | areaTwoArmed | areaOneFullyArmed | areaTwoFullyArmed | monitorArmed | dayModeArmed
  | entryDelayOne | entryDelayTwo | manualExcludeMode | memoryMode | dayZoneSelect
  deriving DecidableEq, Repr

instance : Flag ArmingFlag where
  all := [.areaOneArmed, .areaTwoArmed, .areaOneFullyArmed, .areaTwoFullyArmed, .monitorArmed,
    .dayModeArmed, .entryDelayOne, .entryDelayTwo, .manualExcludeMode, .memoryMode, .dayZoneSelect]
  mask
    | .areaOneArmed => 0x0100
    | .areaTwoArmed => 0x0200
    | .areaOneFullyArmed => 0x0400
    | .areaTwoFullyArmed => 0x0800
    | .monitorArmed => 0x1000
    | .dayModeArmed => 0x2000
    | .entryDelayOne => 0x4000
    | .entryDelayTwo => 0x8000
    | .manualExcludeMode => 0x0001
    | .memoryMode => 0x0002
    | .dayZoneSelect => 0x0004
  label
    | .areaOneArmed => "AREA_1_ARMED"
    | .areaTwoArmed => "AREA_2_ARMED"
    | .areaOneFullyArmed => "AREA_1_FULLY_ARMED"
    | .areaTwoFullyArmed => "AREA_2_FULLY_ARMED"
    | .monitorArmed => "MONITOR_ARMED"
    | .dayModeArmed => "DAY_MODE_ARMED"
    | .entryDelayOne => "ENTRY_DELAY_1_ON"
    | .entryDelayTwo => "ENTRY_DELAY_2_ON"
    | .manualExcludeMode => "MANUAL_EXCLUDE_MODE"
    | .memoryMode => "MEMORY_MODE"
    | .dayZoneSelect => "DAY_ZONE_SELECT"

/-- What the panel drives. -/
inductive Output
  | sirenLoud | sirenSoft | sirenSoftMonitor | sirenSoftFire | strobe | reset | sonalert
  | keypadDisplayEnable | auxOne | auxTwo | auxThree | auxFour | monitorOut | powerFail
  | panelBatteryFail | tamperExpansion
  deriving DecidableEq, Repr

instance : Flag Output where
  all := [.sirenLoud, .sirenSoft, .sirenSoftMonitor, .sirenSoftFire, .strobe, .reset, .sonalert,
    .keypadDisplayEnable, .auxOne, .auxTwo, .auxThree, .auxFour, .monitorOut, .powerFail,
    .panelBatteryFail, .tamperExpansion]
  mask
    | .sirenLoud => 0x0100
    | .sirenSoft => 0x0200
    | .sirenSoftMonitor => 0x0400
    | .sirenSoftFire => 0x0800
    | .strobe => 0x1000
    | .reset => 0x2000
    | .sonalert => 0x4000
    | .keypadDisplayEnable => 0x8000
    | .auxOne => 0x0001
    | .auxTwo => 0x0002
    | .auxThree => 0x0004
    | .auxFour => 0x0008
    | .monitorOut => 0x0010
    | .powerFail => 0x0020
    | .panelBatteryFail => 0x0040
    | .tamperExpansion => 0x0080
  label
    | .sirenLoud => "SIREN_LOUD"
    | .sirenSoft => "SIREN_SOFT"
    | .sirenSoftMonitor => "SIREN_SOFT_MONITOR"
    | .sirenSoftFire => "SIREN_SOFT_FIRE"
    | .strobe => "STROBE"
    | .reset => "RESET"
    | .sonalert => "SONALART"
    | .keypadDisplayEnable => "KEYPAD_DISPLAY_ENABLE"
    | .auxOne => "AUX1"
    | .auxTwo => "AUX2"
    | .auxThree => "AUX3"
    | .auxFour => "AUX4"
    | .monitorOut => "MONITOR_OUT"
    | .powerFail => "POWER_FAIL"
    | .panelBatteryFail => "PANEL_BATT_FAIL"
    | .tamperExpansion => "TAMPER_XPAND"

/-- One of the eight auxiliary outputs. -/
structure AuxOutput where
  place : Fin 8
  deriving DecidableEq, Repr

namespace AuxOutput

/-- The output at a number counted from one. -/
def ofNumber? (n : Nat) : Option AuxOutput :=
  if h : 1 ≤ n ∧ n ≤ 8 then some ⟨⟨n - 1, by omega⟩⟩ else none

/-- The number of the output, counted from one. -/
def number (o : AuxOutput) : Nat := o.place.val + 1

instance : Flag AuxOutput where
  all := (List.finRange 8).map AuxOutput.mk
  mask o := 0x0001 <<< UInt16.ofNat o.place.val
  label o := s!"AUX_{o.number}"

end AuxOutput

/-- How many auxiliary outputs a panel has. -/
def auxOutputCount : Nat := 8

/-- How many zones a panel reports, whatever its model. -/
def zoneCount : Nat := 32

example : (FlagSet.ofList [BankZone.mk 0, BankZone.mk 8]).bits = 0x0101 := by decide

end AlarmPanel
