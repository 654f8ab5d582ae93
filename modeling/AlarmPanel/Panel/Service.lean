import AlarmPanel.Panel.Script
import AlarmPanel.Text.Lines
import AlarmPanel.Text.Utf8

/-!
# The panel as a service

Clients connect to the panel and send it streams of bytes. A stream is cut into lines, and each line that
carries a command is obeyed. A line that is no UTF-8 text ends the session of the client that sent it, and
nothing behind it is read. Each client gets every frame that the panel sends while it is connected.
-/

namespace AlarmPanel

/-- A client that is connected. -/
structure Session where
  /-- What it has sent of a line that has not ended. -/
  unfinished : List UInt8
  /-- How many frames had been sent when it connected. -/
  since : Nat
  deriving DecidableEq, Repr

structure Service where
  panel : SimulatedPanel
  /-- The clients in the order in which they connected; those that are gone keep their places. -/
  sessions : List (Option Session)

/-- The lines that a client has got since so many frames had been sent. -/
def Session.received (s : Session) (seen : Nat) (p : SimulatedPanel) : List String :=
  (p.frames.drop (max s.since seen)).map (· ++ lineEnd)

namespace Service

/-- Obeys the lines of a client in order, and says whether all of them were text. -/
def obeyLines : List (List UInt8) → SimulatedPanel → SimulatedPanel × Bool
  | [], p => (p, true)
  | line :: lines, p =>
    match Text.decodeUtf8? (Text.dropCarriageReturn line) with
    | some text => obeyLines lines (p.handleLine text)
    | none => (p, false)

/-- The client at a place in the list, if it is connected. -/
def session? (client : Nat) (s : Service) : Option Session := (s.sessions[client]?).join

def connect (s : Service) : Service :=
  { s with sessions := s.sessions ++ [some ⟨[], s.panel.frames.length⟩] }

/-- Takes in bytes from a client. -/
def feed (client : Nat) (bytes : List UInt8) (s : Service) : Service :=
  match s.session? client with
  | none => s
  | some session =>
    let (lines, unfinished) := Text.cutLines session.unfinished bytes
    let (panel, allText) := obeyLines lines s.panel
    let next : Option Session := if allText then some { session with unfinished } else none
    { panel, sessions := s.sessions.set client next }

/-- A client goes. The line that it has not ended still counts. -/
def disconnect (client : Nat) (s : Service) : Service :=
  match s.session? client with
  | none => s
  | some session =>
    let (panel, _) :=
      obeyLines (if session.unfinished.isEmpty then [] else [session.unfinished]) s.panel
    { panel, sessions := s.sessions.set client none }

end Service

/-! ## Scripts -/

/-- One step of a script for the service. -/
inductive ServiceStep
  | connect
  | send (client : Nat) (bytes : List UInt8)
  /-- Sends bytes after which the service hangs up. -/
  | sendToEnd (client : Nat) (bytes : List UInt8)
  | disconnect (client : Nat)
  | panel (step : PanelStep) (times : Nat)

/-- What a bystander sees after a step. -/
structure ServiceView where
  panel : PanelView
  /-- What a client has got in the step that the service hung up on. -/
  last : Option (List String)
  /-- Of each client whether it has got just the frames of the step, unless it is gone. -/
  received : List (Option Bool)

namespace Service

/-- What a bystander sees who has already seen the first `seen` frames. -/
def view (outcome : PanelOutcome) (last : Option (List String)) (seen : Nat) (s : Service) :
    ServiceView :=
  let expected := (s.panel.frames.drop seen).map (· ++ lineEnd)
  { panel := s.panel.view outcome seen
    last
    received := s.sessions.map fun session =>
      session.map fun client => client.received seen s.panel == expected }

/-- The service after a step, and what is then seen; none if the step cannot be taken, because its client
is gone, is not hung up on as it expects, or cannot reach the service. -/
def step? (reachable : Bool) (draw : SimulatedPanel.Draw) (step : ServiceStep) (s : Service) :
    Option (Service × ServiceView) :=
  let seen := s.panel.frames.length
  match step with
  | .connect =>
    if reachable then
      let next := s.connect
      some (next, next.view .done none seen)
    else none
  | .send client bytes => do
    let _ ← s.session? client
    let next := s.feed client bytes
    let _ ← next.session? client
    return (next, next.view .done none seen)
  | .sendToEnd client bytes => do
    let session ← s.session? client
    let next := s.feed client bytes
    if (next.session? client).isSome then none
    else some (next, next.view .done (some (session.received seen next.panel)) seen)
  | .disconnect client => do
    let _ ← s.session? client
    let next := s.disconnect client
    return (next, next.view .done none seen)
  | .panel step times =>
    let (panel, seenPanel) := s.panel.runStep draw step times
    let next := { s with panel }
    some (next, next.view seenPanel.outcome none seen)

/-- The views after each step of a script, if every step can be taken. -/
def runScript (reachable : Bool) (draw : SimulatedPanel.Draw) :
    List ServiceStep → Service → Option (List ServiceView)
  | [], _ => some []
  | step :: steps, s => do
    let (next, seen) ← s.step? reachable draw step
    return seen :: (← runScript reachable draw steps next)

end Service

end AlarmPanel
