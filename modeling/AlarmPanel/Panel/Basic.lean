import AlarmPanel.Alarm
import AlarmPanel.Duration
import AlarmPanel.Settings.Panel

/-!
# The simulated panel

A panel that is armed, tripped and disarmed as a real one, and sends a frame for each event. Arming and
tripping begin a delay, and at its end a delayed transition moves the panel on, unless it has been
overtaken: each new delay and each disarming starts a new generation, and a delayed transition of an older
generation does nothing. While the panel is disarmed, zone activity may open and close zones at random; it
is tied to a generation of its own in the same way.

What is under way (delayed transitions, zone activity, answers that have been formed but not sent) is part
of the state, so that every order in which it can come about is an order of operations on the state.
-/

namespace AlarmPanel

/-- How far the simulated panel is armed. -/
inductive PanelState
  | disarmed | exitDelay | armed | entryDelay | tripped
  deriving DecidableEq, Repr

def PanelState.label : PanelState → String
  | .disarmed => "Disarmed"
  | .exitDelay => "ExitDelay"
  | .armed => "Armed"
  | .entryDelay => "EntryDelay"
  | .tripped => "Tripped"

/-- The events that a panel reports when it moves from one state to another. -/
def transitionEvents (previous next : PanelState) (mode : Option ArmingMode) : List EventType :=
  (if next = .disarmed then [.disarmed] else []) ++
    (if next = .exitDelay then
      (match mode with
        | some m => [m.eventType]
        | none => []) ++ [.exitDelayStart]
    else []) ++
    (if next = .tripped then [.alarm] else []) ++
    (if previous = .exitDelay ∧ next ≠ previous ∨ next = .armed then [.exitDelayEnd] else []) ++
    (if next = .entryDelay then [.entryDelayStart] else []) ++
    (if previous = .entryDelay ∧ next ≠ previous then [.entryDelayEnd] else [])

/-- The arming status that a panel reports in a state. -/
def armingStatus (state : PanelState) : FlagSet ArmingFlag :=
  match state with
  | .armed => FlagSet.ofList [.areaOneArmed, .areaOneFullyArmed]
  | .exitDelay => FlagSet.ofList [.areaOneArmed]
  | .disarmed | .entryDelay | .tripped => FlagSet.empty

/-- A transition at the end of a delay. -/
structure DelayedTransition where
  generation : Nat
  next : PanelState
  /-- When the delay ends, in milliseconds. -/
  due : Nat
  deriving DecidableEq, Repr

/-- Zone activity that rests until it opens or closes the next zone. -/
structure ZoneActivity where
  generation : Nat
  due : Nat
  deriving DecidableEq, Repr

structure SimulatedPanel where
  settings : PanelSettings
  /-- What the wall clock shows when the frame with this number goes out. -/
  clock : Nat → Timestamp
  /-- Milliseconds since the panel was set up. -/
  now : Nat
  state : PanelState
  mode : Option ArmingMode
  /-- Whether each zone is unsealed, from zone one on. -/
  zones : List Bool
  auxOutputs : FlagSet AuxOutput
  generation : Nat
  active : Bool
  activityGeneration : Nat
  delayed : List DelayedTransition
  activities : List ZoneActivity
  /-- Answers that have been formed and not sent. -/
  replies : List StatusUpdate
  /-- The frames sent so far, without their line ends. -/
  frames : List String

namespace SimulatedPanel

/-- A disarmed panel with all its zones sealed. -/
def new (settings : PanelSettings) (clock : Nat → Timestamp) : SimulatedPanel :=
  { settings, clock, now := 0, state := .disarmed, mode := none,
    zones := List.replicate (min settings.zones.toNat zoneCount) false,
    auxOutputs := FlagSet.empty, generation := 0, active := false, activityGeneration := 0,
    delayed := [], activities := [], replies := [], frames := [] }

/-! ## Sending -/

/-- Sends the frame of an event. An event that has no frame is dropped. -/
def send (event : Event) (p : SimulatedPanel) : SimulatedPanel :=
  match event.toFrame with
  | .ok frame => { p with frames := p.frames ++ [frame.encode] }
  | .error _ => p

/-- Reports an event with the time of the wall clock. -/
def report (type : EventType) (zone : UInt8) (p : SimulatedPanel) : SimulatedPanel :=
  p.send { address := some 0, timestamp := some (p.clock p.frames.length),
           body := .system { type, zone, area := 0 } }

/-- Sends an answer to a status request, which carries no time. -/
def answer (update : StatusUpdate) (p : SimulatedPanel) : SimulatedPanel :=
  p.send { address := some 0, timestamp := none, body := .status update }

/-! ## Transitions -/

def stopActivity (p : SimulatedPanel) : SimulatedPanel := { p with active := false }

/-- Moves to a state and reports the events of the move. Every state but the disarmed one ends the zone
activity. -/
def moveTo (next : PanelState) (p : SimulatedPanel) : SimulatedPanel :=
  let quiet := if next = .disarmed then p else p.stopActivity
  (transitionEvents p.state next p.mode).foldl (fun q type => q.report type 0)
    { quiet with state := next }

/-- Begins a delay, which overtakes any other. -/
def moveAfter (millis : UInt64) (next : PanelState) (p : SimulatedPanel) : SimulatedPanel :=
  { p with
    generation := p.generation + 1
    delayed := p.delayed ++
      [⟨p.generation + 1, next, p.now + (Duration.ofMillis millis).pauseMillis⟩] }

/-- Arms in a mode: the exit delay, and then armed. -/
def arm (mode : ArmingMode) (p : SimulatedPanel) : SimulatedPanel :=
  ({ p with mode := some mode }.moveTo .exitDelay).moveAfter p.settings.exitMillis .armed

/-- Disarms, which overtakes any delay. -/
def disarm (p : SimulatedPanel) : SimulatedPanel :=
  { p with generation := p.generation + 1, mode := none }.moveTo .disarmed

/-- Trips: the entry delay, and then the alarm. -/
def trip (p : SimulatedPanel) : SimulatedPanel :=
  (p.moveTo .entryDelay).moveAfter p.settings.entryMillis .tripped

/-! ## Zones and outputs -/

/-- Whether a zone is unsealed, by its number. -/
def zone? (p : SimulatedPanel) (number : Nat) : Option Bool :=
  if number = 0 then none else p.zones[number - 1]?

/-- Seals or unseals a zone, and reports it even if nothing changes. An armed panel is tripped by it. -/
def setZone (number : UInt8) (unsealed : Bool) (p : SimulatedPanel) :
    Except Error SimulatedPanel :=
  if 1 ≤ number.toNat ∧ number.toNat ≤ p.zones.length then
    let reported := { p with zones := p.zones.set (number.toNat - 1) unsealed }.report
      (if unsealed then .unsealed else .sealed) number
    .ok (if reported.state = .armed then reported.trip else reported)
  else .error (.invalidArgument (.noSuchZone number p.zones.length))

/-- Switches an auxiliary output. -/
def setAuxOutput (number : UInt8) (on : Bool) (p : SimulatedPanel) :
    Except Error SimulatedPanel :=
  match AuxOutput.ofNumber? number.toNat with
  | some output => .ok { p with auxOutputs := p.auxOutputs.assign output on }
  | none => .error (.invalidArgument (.noSuchAuxOutput number))

/-! ## Zone activity -/

/-- Starts zone activity, unless it runs or there is no zone. -/
def startActivity (p : SimulatedPanel) : SimulatedPanel :=
  if p.active || p.zones.isEmpty then p
  else
    { p with
      active := true
      activityGeneration := p.activityGeneration + 1
      activities := p.activities ++ [⟨p.activityGeneration + 1, p.now⟩] }

/-- The zone activity at a place in the list wakes: it ends if it has been stopped, else it opens or
closes the zone that was drawn and rests again. -/
def wake (index drawnZone restMillis : Nat) (p : SimulatedPanel) : SimulatedPanel :=
  match p.activities[index]? with
  | none => p
  | some activity =>
    let awake := { p with activities := p.activities.eraseIdx index }
    if p.active && p.activityGeneration == activity.generation then
      let place := drawnZone % p.zones.length
      match awake.setZone (UInt8.ofNat (place + 1)) !(p.zones.getD place false) with
      | .ok q =>
        { q with activities := q.activities ++ [⟨activity.generation, p.now + restMillis⟩] }
      | .error _ => awake
    else awake

/-- The delayed transition at a place in the list has come to its end: it moves the panel if nothing has
overtaken it. -/
def expire (index : Nat) (p : SimulatedPanel) : SimulatedPanel :=
  match p.delayed[index]? with
  | none => p
  | some transition =>
    let rest := { p with delayed := p.delayed.eraseIdx index }
    if p.generation = transition.generation then rest.moveTo transition.next else rest

/-! ## Answers -/

/-- The word of the bank's zones that are unsealed; zones that the panel does not have are sealed. -/
def zoneWord (bank : ZoneBank) (p : SimulatedPanel) : FlagSet BankZone :=
  FlagSet.ofList ((Flag.all : List BankZone).filter fun z =>
    p.zones.getD (z.number + bank.firstZone - 2) false)

/-- The version that the settings name. -/
def version (p : SimulatedPanel) : StatusUpdate :=
  .panelVersion p.settings.model p.settings.major p.settings.minor

/-- Sends the formed answer at a place in the list. -/
def sendReply (index : Nat) (p : SimulatedPanel) : SimulatedPanel :=
  match p.replies[index]? with
  | none => p
  | some update => { p with replies := p.replies.eraseIdx index }.answer update

/-- Sends all answers that have been formed. -/
def sendReplies (p : SimulatedPanel) : SimulatedPanel :=
  p.replies.foldl (fun q update => q.answer update) { p with replies := [] }

end SimulatedPanel

end AlarmPanel
