import AlarmPanel.Client.Link
import AlarmPanel.Client.Lock
import AlarmPanel.Alarm

/-!
# What the client lets be known

The client reports each event that it receives and each change of the alarm, first to the handler for it
and then by broadcast; the coming and going of the link it only broadcasts. Its log holds all that it does
to the outside, with the time.
-/

namespace AlarmPanel

/-- What a handler is called with. -/
inductive Report
  | received (event : Event)
  | changed (change : Change)
  deriving DecidableEq

/-- What the client broadcasts. -/
inductive Notice
  | connected
  | disconnected
  | report (report : Report)
  deriving DecidableEq

/-- How the calls of a handler end. -/
inductive HandlerEnd
  | returns
  | breaksOff
  deriving DecidableEq, Repr

/-- The handlers that are registered, by how their calls end. -/
structure Handlers where
  event : Option HandlerEnd
  arming : Option HandlerEnd
  zone : Option HandlerEnd
  auxOutput : Option HandlerEnd
  deriving DecidableEq, Repr

namespace Handlers

/-- No handler is registered. -/
def none : Handlers := ⟨.none, .none, .none, .none⟩

/-- The handler for a report. -/
def for? (h : Handlers) : Report → Option HandlerEnd
  | .received _ => h.event
  | .changed (.arming _ _) => h.arming
  | .changed (.zone _ _) => h.zone
  | .changed (.auxOutput _ _) => h.auxOutput

end Handlers

/-- Something that the client does to the outside. -/
inductive Effect
  | dialing (caller : Strand)
  | dialed (outcome : DialOutcome)
  | closedLink
  | wrote (writer : Strand) (line : String)
  | called (report : Report) (ending : HandlerEnd)
  | notified (notice : Notice)
  deriving DecidableEq

/-- An effect and when it came about, in milliseconds. -/
structure LogEntry where
  time : Nat
  effect : Effect
  deriving DecidableEq

end AlarmPanel
