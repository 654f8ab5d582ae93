import AlarmPanel.Client.Slots
import AlarmPanel.Text.Blank
import AlarmPanel.Text.Utf8

/-!
# What comes in

A line from the panel is an event or is left out of account. An event shows that the panel is there, answers
the open requests for its status, and changes the alarm; the client reports it and then each of the changes.
-/

namespace AlarmPanel

/-- The event that a line of bytes means. Bytes that are no text are read as replacement characters, and
blank characters at the ends do not count. -/
def eventOfBytes? (bytes : List UInt8) : Option Event :=
  match Text.trim (Text.decodeUtf8Lossy bytes) with
  | [] => none
  | text => (Event.ofLine (String.ofList text)).toOption

/-- The status update that an event carries. -/
def Event.status? (e : Event) : Option StatusUpdate :=
  match e.body with
  | .status update => some update
  | .system _ => none

namespace Client

/-- Takes in an event. -/
def receive (event : Event) (c : Client) : Client :=
  let heard := { c with lastHeard := some c.now }
  let answered := match event.status? with
    | some update => heard.fillSlot update
    | none => heard
  -- The event is reported before the alarm takes it in.
  let reported := answered.announce (.received event)
  let (alarm, changes) := reported.alarm.handle event
  changes.foldl (fun d change => d.announce (.changed change)) { reported with alarm }

/-- Takes in a line of bytes. -/
def receiveLine (bytes : List UInt8) (c : Client) : Client :=
  match eventOfBytes? bytes with
  | some event => c.receive event
  | none => c

end Client

end AlarmPanel
