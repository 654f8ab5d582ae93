import AlarmPanel.Broadcast
import AlarmPanel.Panel.Run

/-!
# Scripts for the simulated panel

A script drives a panel step by step, and after each step shows what a bystander sees: the outcome of the
step, the state of the panel, and the frames that were sent in the step to a listener that may fall behind
by 256 of them.
-/

namespace AlarmPanel

/-- One step of a script. -/
inductive PanelStep
  | arm (mode : ArmingMode)
  | disarm
  | trip
  | setZone (number : UInt8) (unsealed : Bool)
  | setAuxOutput (number : UInt8) (on : Bool)
  | command (text : String)
  | zone (number : UInt8)
  | startActivity
  | stopActivity
  | advance (millis : Nat)
  deriving DecidableEq, Repr

/-- The outcome of a step. -/
inductive PanelOutcome
  | done
  | failed (error : Error)
  | zone (unsealed : Option Bool)
  deriving DecidableEq, Repr

/-- What a bystander sees after a step. -/
structure PanelView where
  outcome : PanelOutcome
  state : PanelState
  mode : Option ArmingMode
  zones : List Bool
  auxOutputs : FlagSet AuxOutput
  active : Bool
  frames : Heard String

/-- How many frames a listener may fall behind. -/
def frameCapacity : Nat := 256

namespace SimulatedPanel

/-- The panel after one call, and its outcome. -/
def callOnce (draw : Draw) (step : PanelStep) (p : SimulatedPanel) :
    SimulatedPanel × PanelOutcome :=
  let attempt (r : Except Error SimulatedPanel) : SimulatedPanel × PanelOutcome :=
    match r with
    | .ok q => (q, .done)
    | .error e => (p, .failed e)
  match step with
  | .arm mode => (p.arm mode, .done)
  | .disarm => (p.disarm, .done)
  | .trip => (p.trip, .done)
  | .setZone number unsealed => attempt (p.setZone number unsealed)
  | .setAuxOutput number on => attempt (p.setAuxOutput number on)
  | .command text => (p.handleCommand text, .done)
  | .zone number => (p, .zone (p.zone? number.toNat))
  | .startActivity => (p.startActivity, .done)
  | .stopActivity => (p.stopActivity, .done)
  | .advance millis => (p.advance draw millis, .done)

/-- The panel after the call has been made so many times over, and the last outcome. -/
def callTimes (draw : Draw) (step : PanelStep) : Nat → SimulatedPanel → SimulatedPanel × PanelOutcome
  | 0, p => (p, .done)
  | 1, p => p.callOnce draw step
  | n + 2, p => (callTimes draw step (n + 1) (p.callOnce draw step).1)

/-- What a bystander sees who has already seen the first `seen` frames. -/
def view (outcome : PanelOutcome) (seen : Nat) (p : SimulatedPanel) : PanelView :=
  { outcome, state := p.state, mode := p.mode, zones := p.zones, auxOutputs := p.auxOutputs,
    active := p.active, frames := hear frameCapacity (p.frames.drop seen) }

/-- The panel after a step, made so many times, and after all that is due then. -/
def runStep (draw : Draw) (step : PanelStep) (times : Nat) (p : SimulatedPanel) :
    SimulatedPanel × PanelView :=
  let (called, outcome) := p.callTimes draw step times
  let settled := called.settle draw
  (settled, settled.view outcome p.frames.length)

/-- The views after each step of a script. -/
def runScript (draw : Draw) : List (PanelStep × Nat) → SimulatedPanel → List PanelView
  | [], _ => []
  | (step, times) :: steps, p =>
    let (q, seen) := p.runStep draw step times
    seen :: runScript draw steps q

end SimulatedPanel

end AlarmPanel
