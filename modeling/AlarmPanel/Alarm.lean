import AlarmPanel.Event

/-!
# The alarm

What is known of the panel from its events: how far it is armed and in which mode, its zones and
auxiliary outputs, and its model and version. `Alarm.handle` takes in one event and lists the changes
it makes; a value that is reported again makes none.
-/

namespace AlarmPanel

inductive ArmingState
  | unknown | disarmed | arming | exitDelay | armed | entryDelay | triggered
  deriving DecidableEq, Repr

def ArmingState.label : ArmingState → String
  | .unknown => "Unknown"
  | .disarmed => "Disarmed"
  | .arming => "Arming"
  | .exitDelay => "ExitDelay"
  | .armed => "Armed"
  | .entryDelay => "EntryDelay"
  | .triggered => "Triggered"

/-- How the panel is, or is about to be, armed. -/
inductive ArmingMode
  | away | home | day | night | vacation | highest
  deriving DecidableEq, Repr

namespace ArmingMode

def all : List ArmingMode := [.away, .home, .day, .night, .vacation, .highest]

/-- The event by which a panel reports that it is armed in the mode. -/
def eventType : ArmingMode → EventType
  | .away => .armedAway
  | .home => .armedHome
  | .day => .armedDay
  | .night => .armedNight
  | .vacation => .armedVacation
  | .highest => .armedHighest

/-- The mode that the event reports, if it reports one. -/
def ofEventType? (type : EventType) : Option ArmingMode := all.find? fun m => m.eventType == type

def label (m : ArmingMode) : String := m.eventType.label

end ArmingMode

/-- The model and the firmware version of a panel. -/
structure PanelInfo where
  model : PanelModel
  version : String
  deriving DecidableEq, Repr

/-- A change of what is known of the panel. -/
inductive Change
  | arming (state : ArmingState) (mode : Option ArmingMode)
  | zone (number : Nat) (triggered : Bool)
  | auxOutput (number : Nat) (active : Bool)
  deriving DecidableEq, Repr

/-- What is known of the panel; an entry is none until the panel reports it. -/
structure Alarm where
  /-- Whether an empty arming status leaves a known state as it is, as panels with old firmware need,
  which report an empty status while they are armed. -/
  inferArming : Bool
  state : ArmingState
  mode : Option ArmingMode
  zones : Vector (Option Bool) zoneCount
  auxOutputs : Vector (Option Bool) auxOutputCount
  panel : Option PanelInfo
  deriving DecidableEq

namespace Alarm

/-- Nothing is known yet. -/
def new (inferArming : Bool) : Alarm :=
  { inferArming, state := .unknown, mode := none, zones := .replicate _ none,
    auxOutputs := .replicate _ none, panel := none }

/-- What is known of a zone, by its number; no answer if there is no such zone. -/
def zone? (a : Alarm) (number : Nat) : Option (Option Bool) :=
  if h : 1 ≤ number ∧ number ≤ zoneCount then some a.zones[number - 1] else none

/-! ## Single values -/

/-- An alarm together with the changes that led to it. -/
abbrev Updated := Alarm × List Change

/-- Goes on from an updated alarm, and keeps the changes in order. -/
def Updated.andThen (u : Updated) (next : Alarm → Updated) : Updated :=
  ((next u.1).1, u.2 ++ (next u.1).2)

def setState (state : ArmingState) (a : Alarm) : Updated :=
  if a.state = state then (a, [])
  else ({ a with state }, [.arming state a.mode])

/-- Records a zone; a number that no zone has is left out of account. -/
def setZone (number : Nat) (triggered : Bool) (a : Alarm) : Updated :=
  if h : 1 ≤ number ∧ number ≤ zoneCount then
    if a.zones[number - 1] = some triggered then (a, [])
    else ({ a with zones := a.zones.set (number - 1) (some triggered) },
      [.zone number triggered])
  else (a, [])

/-- Records an auxiliary output. -/
def setAuxOutput (output : AuxOutput) (active : Bool) (a : Alarm) : Updated :=
  if a.auxOutputs[output.place] = some active then (a, [])
  else ({ a with auxOutputs := a.auxOutputs.set output.place (some active) },
    [.auxOutput output.number active])

/-- Takes in the entries of a list one after the other. -/
def forEach {α : Type} (entries : List α) (record : α → Alarm → Updated) (a : Alarm) : Updated :=
  entries.foldl (fun u entry => u.andThen (record entry)) (a, [])

/-! ## Status updates -/

/-- Area one armed and nothing else is the exit delay; armed and fully armed is armed; anything else
counts as disarmed, unless the state is to be inferred and already known. -/
def handleArming (status : FlagSet ArmingFlag) (a : Alarm) : Updated :=
  if status = FlagSet.ofList [.areaOneArmed] then a.setState .exitDelay
  else if status.has .areaOneArmed && status.has .areaOneFullyArmed then a.setState .armed
  else if !a.inferArming || a.state = .unknown then a.setState .disarmed
  else (a, [])

/-- Every zone of the bank is triggered or not, as the word includes it or not. -/
def handleZones (bank : ZoneBank) (zones : FlagSet BankZone) (a : Alarm) : Updated :=
  a.forEach (Flag.all : List BankZone) fun z =>
    setZone (z.number + bank.firstZone - 1) (zones.has z)

def handleAuxOutputs (flags : FlagSet AuxOutput) (a : Alarm) : Updated :=
  a.forEach (Flag.all : List AuxOutput) fun o => setAuxOutput o (flags.has o)

/-- Of the zone conditions only the unsealed inputs say whether a zone is triggered, and the first
report of the panel's version stands. -/
def handleStatus (update : StatusUpdate) (a : Alarm) : Updated :=
  match update with
  | .arming status => a.handleArming status
  | .zone bank .inputUnsealed zones => a.handleZones bank zones
  | .panelVersion model major minor =>
    match a.panel with
    | none => ({ a with panel := some ⟨model, showVersion major minor⟩ }, [])
    | some _ => (a, [])
  | .auxOutputs flags => a.handleAuxOutputs flags
  | .zone _ _ _ | .miscAlarms _ | .outputs _ | .viewState _ => (a, [])

/-! ## System events -/

/-- The panel arms in a mode, passes the exit delay, may go through an entry delay into the alarm, and
is disarmed. An alarm that is restored leaves the panel armed, and the end of the exit delay counts only
during that delay, since the panel also sends it when it is disarmed then. -/
def handleSystem (event : SystemEvent) (a : Alarm) : Updated :=
  match event.type with
  | .unsealed => a.setZone event.zone.toNat true
  | .sealed => a.setZone event.zone.toNat false
  | .alarm => a.setState .triggered
  | .alarmRestore => if a.state = .disarmed then (a, []) else a.setState .armed
  | .entryDelayStart => a.setState .entryDelay
  | .exitDelayStart => a.setState .exitDelay
  | .exitDelayEnd => if a.state = .exitDelay then a.setState .armed else (a, [])
  | .armedAway | .armedHome | .armedDay | .armedNight | .armedVacation | .armedHighest =>
    { a with mode := ArmingMode.ofEventType? event.type }.setState .arming
  | .disarmed => { a with mode := none }.setState .disarmed
  | _ => (a, [])

/-- Takes in an event: the alarm after it, and the changes it makes. -/
def handle (event : Event) (a : Alarm) : Updated :=
  match event.body with
  | .system e => a.handleSystem e
  | .status u => a.handleStatus u

end Alarm

end AlarmPanel
