import AlarmPanel.Settings.Reading
import AlarmPanel.Status.Update

/-!
# Settings of the simulated panel
-/

namespace AlarmPanel

structure PanelSettings where
  /-- How many zones the panel has. -/
  zones : UInt8
  exitMillis : UInt64
  entryMillis : UInt64
  /-- The code with which a user arms and disarms. -/
  userCode : String
  model : PanelModel
  major : UInt8
  minor : UInt8
  deriving DecidableEq

/-- Why settings of a panel cannot be read. -/
inductive PanelSettingsFault
  | badValue
  | tooManyZones (zones : Nat)
  deriving DecidableEq, Repr

def PanelSettingsFault.message? : PanelSettingsFault → Option String
  | .badValue => none
  | .tooManyZones zones =>
    some ("num_zones " ++ toString zones ++ " exceeds the " ++ toString zoneCount ++
      " zones a panel reports")

namespace PanelSettings

def default : PanelSettings :=
  { zones := 8, exitMillis := 10000, entryMillis := 10000, userCode := "1234", model := .d16x,
    major := 8, minor := 7 }

/-- The settings with another number of zones, at most as many as a panel reports. -/
def withZones (s : PanelSettings) (zones : UInt8) : PanelSettings :=
  { s with zones := if zones.toNat ≤ zoneCount then zones else UInt8.ofNat zoneCount }

/-- The settings with one of them read from a file. -/
def set (s : PanelSettings) (name : String) (value : SettingValue) :
    Except PanelSettingsFault PanelSettings :=
  let orBad {α : Type} (v? : Option α) (use : α → PanelSettings) :
      Except PanelSettingsFault PanelSettings :=
    match v? with
    | some v => .ok (use v)
    | none => .error .badValue
  match name with
  | "num_zones" =>
    match value.byte? with
    | none => .error .badValue
    | some v =>
      if v.toNat ≤ zoneCount then .ok { s with zones := v } else .error (.tooManyZones v.toNat)
  | "exit_delay_ms" => orBad value.word64? fun v => { s with exitMillis := v }
  | "entry_delay_ms" => orBad value.word64? fun v => { s with entryMillis := v }
  | "user_code" => orBad value.text? fun v => { s with userCode := v }
  | "model" => orBad (value.text?.bind PanelModel.ofLabel?) fun v => { s with model := v }
  | "major_version" => orBad value.byte? fun v => { s with major := v }
  | "minor_version" => orBad value.byte? fun v => { s with minor := v }
  | _ => .ok s

/-- The settings that a file gives; the first entry that cannot be read decides the fault. -/
def read (entries : List (String × SettingValue)) : Except PanelSettingsFault PanelSettings :=
  entries.foldlM (fun s (name, value) => s.set name value) default

end PanelSettings

end AlarmPanel
