import AlarmPanel.Tcp.Basic

/-!
# Scripts for a link over TCP

A script works on both ends of a link: it connects, reads, writes and closes here, and at the other end it
plays a peer that accepts, sends and hangs up. A script with a step that cannot be carried out, such as one
in which a peer sends that is not there, has no outcome.
-/

namespace AlarmPanel

/-- One step of a script. -/
inductive TcpStep
  | connect
  /-- The peer stops listening. -/
  | unlisten
  | read
  /-- Begins a read in the background. -/
  | readLater
  /-- Waits for the read in the background. -/
  | join
  | write (bytes : List UInt8)
  | close
  | peerSend (bytes : List UInt8)
  | peerClose
  /-- The peer reads until the end of the stream. -/
  | peerEnd
  deriving DecidableEq, Repr

inductive TcpOutcome
  | done
  | connected
  /-- A line, or that there is none. -/
  | line (line : Option (List UInt8))
  /-- What the peer has received. -/
  | received (bytes : List UInt8)
  | failed (error : Error)
  deriving DecidableEq, Repr

/-- A read in the background: under way, or over. -/
inductive BackgroundRead
  | waiting
  | over (line : Option (List UInt8))
  deriving DecidableEq, Repr

/-- Both ends of a link. -/
structure TcpScene where
  link : TcpLink
  listening : Bool
  /-- Whether there is a peer that has accepted and not hung up. -/
  peer : Bool
  background : Option BackgroundRead
  deriving DecidableEq, Repr

/-- What a bystander sees after a step. -/
structure TcpView where
  outcome : TcpOutcome
  connected : Bool
  deriving DecidableEq, Repr

namespace TcpScene

def new : TcpScene := { link := TcpLink.new, listening := true, peer := false, background := none }

/-- Lets the read in the background end, if it can. -/
def goOn (s : TcpScene) : TcpScene :=
  match s.background, s.link.read? with
  | some .waiting, some (link, line) => { s with link, background := some (.over line) }
  | _, _ => s

/-- The scene after a step, and its outcome, if the step can be carried out. A connection is refused by a
peer that does not listen or cannot be reached. -/
def step? (reachable : Bool) (step : TcpStep) (s : TcpScene) : Option (TcpScene × TcpOutcome) :=
  match step with
  | .connect =>
    if !(s.listening && reachable) then some (s, .failed (.connection "Connection refused"))
    else if s.background = some .waiting then none
    else some ({ s with link := TcpLink.accepted, peer := true }, .connected)
  | .unlisten => some ({ s with listening := false }, .done)
  | .read =>
    if s.background = some .waiting then none
    else s.link.read?.map fun (link, line) => ({ s with link }, .line line)
  | .readLater => some ({ s with background := some .waiting }, .done)
  | .join =>
    match s.background with
    | some (.over line) => some ({ s with background := none }, .line line)
    | _ => none
  | .write bytes =>
    match s.link.write with
    | .ok () => if s.peer then some (s, .received bytes) else none
    | .error e => some (s, .failed e)
  | .close => some ({ s with link := s.link.close }, .done)
  | .peerSend bytes => if s.peer then some ({ s with link := s.link.arrive bytes }, .done) else none
  | .peerClose =>
    -- A peer that is not there hangs up as well: nothing happens.
    some (if s.peer then { s with link := s.link.endInflow, peer := false } else s, .done)
  | .peerEnd => if s.peer && !s.link.writable then some (s, .received []) else none

/-- The views after each step of a script, if every step can be carried out. -/
def runScript (reachable : Bool) : List TcpStep → TcpScene → Option (List TcpView)
  | [], _ => some []
  | step :: steps, s => do
    let (stepped, outcome) ← s.step? reachable step
    let next := stepped.goOn
    return ⟨outcome, next.link.connected⟩ :: (← runScript reachable steps next)

end TcpScene

end AlarmPanel
