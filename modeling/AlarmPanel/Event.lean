import AlarmPanel.Frame.Encode
import AlarmPanel.Status.Update
import AlarmPanel.SystemEvent

/-!
# Events

An event is what a frame from the panel means: a system event or an answer to a status request, with the
address and the time that the frame may carry.
-/

namespace AlarmPanel

/-- What an event tells. -/
inductive EventBody
  | system (event : SystemEvent)
  | status (update : StatusUpdate)
  deriving DecidableEq, Repr

structure Event where
  address : Option UInt8
  timestamp : Option Timestamp
  body : EventBody
  deriving DecidableEq

namespace Event

/-- The event that a frame means. -/
def ofFrame (f : Frame) : Except Error Event := do
  let body ← match f.command with
    | .systemStatus => EventBody.system <$> SystemEvent.decode f.data
    | .userInterface => EventBody.status <$> StatusUpdate.decode f.data
  return { address := f.address, timestamp := f.timestamp, body }

/-- The event that a line from the panel means. -/
def ofLine (line : String) : Except Error Event := do ofFrame (← Frame.decode line)

/-- The frame that reports the event; a status update goes out as an answer. -/
def toFrame (e : Event) : Except Error Frame :=
  match e.body with
  | .system event => do
    let data ← event.encode
    return { address := e.address, seq := 0, command := .systemStatus, data,
             timestamp := e.timestamp, isResponse := false }
  | .status update =>
    .ok { address := e.address, seq := 0, command := .userInterface, data := update.encode,
          timestamp := e.timestamp, isResponse := true }

end Event

end AlarmPanel
