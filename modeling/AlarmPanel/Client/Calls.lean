import AlarmPanel.Client.Sending
import AlarmPanel.Client.Slots

/-!
# Calls

Each call runs as a task of its own until it is answered. The commands end when they have been written, the
status requests when their slot is filled or their time is up. Closing is told to all at once, then closes
the link, and then waits for the background tasks for a short while each.
-/

namespace AlarmPanel

namespace Client

/-- Ends a call with its answer. -/
def answerCall (task : Nat) (call : Call) (answer : Answer) (c : Client) : Client :=
  c.finish task (.call call) (.answered answer)

/-! ## Commands -/

/-- Begins to send a command. -/
def beginSend (task : Nat) (call : Call) (command : Except Error String) (c : Client) : Client :=
  match command.bind requestLine? with
  | .ok line => c.setTask task (.call call (.sending line (.connecting .asking)))
  | .error e => c.answerCall task call (.failed e)

/-! ## Status requests -/

/-- Begins a status request. -/
def beginAsk (task : Nat) (call : Call) (command : String) (patience : Duration) (c : Client) :
    Client :=
  match statusCode command with
  | .error e => c.answerCall task call (.failed e)
  | .ok code =>
    let (shared, slot) := c.shareSlot code
    match requestLine? command with
    | .ok line =>
      shared.setTask task
        (.call call (.requesting slot command patience line (.connecting .asking)))
    | .error e => shared.answerCall task call (.failed e)

/-- The answer of a call that gets this status update. -/
def answerOf (call : Call) (update : StatusUpdate) : Answer :=
  match call, update with
  | .panelInfo, .panelVersion model major minor => .panel ⟨model, showVersion major minor⟩
  | .panelInfo, other => .failed (.unexpectedResponse (.noPanelVersion other.request))
  | .refreshAuxOutputs, .auxOutputs flags => .auxOutputs flags
  | .refreshAuxOutputs, other => .failed (.unexpectedResponse (.noAuxOutputs other.request))
  | _, update => .status update

/-- A call that waits for its slot: it gets the update in it; if the slot is empty and off the table no
answer can come; else its time may be up. -/
def awaitStep? (task : Nat) (call : Call) (slot : Nat) (command : String) (deadline : Nat)
    (c : Client) : Option Client :=
  match c.slots[slot]? with
  | some (some update) => some (c.answerCall task call (answerOf call update))
  | _ =>
    if c.openSlots.all fun entry => entry.2 ≠ slot then
      some (c.answerCall task call (.failed .closed))
    else if deadline ≤ c.now then
      some (c.answerCall task call (.failed (.commandTimeout command)))
    else none

/-! ## Starting and closing -/

/-- Launches the background tasks, the receive task first. -/
def launch (task : Nat) (call : Call) (c : Client) : Client :=
  let handles : Handles := ⟨c.tasks.length, c.tasks.length + 1⟩
  ({ c with started := true }.addTask (.receive .fresh)).addTask (.refresh .fresh)
    |>.setTask task (.call call (.launched handles))

/-- The signal to shut down. It is kept only if somebody listens. -/
def shutDown (c : Client) : Client :=
  { c with closed := true, shutdown := c.shutdown || c.hasListener }

/-- Takes the handles of the background tasks, if no other call has taken them, and goes on to a place that
needs them. -/
def collect (task : Nat) (call : Call) (place : Handles → CallPlace) (c : Client) : Client :=
  match c.handles with
  | some handles => { c with handles := none }.setTask task (.call call (place handles))
  | none => c.answerCall task call .done

/-! ## Steps -/

/-- The first step of a call. -/
def beginCall (task : Nat) (call : Call) (c : Client) : Client :=
  let goTo (place : CallPlace) (d : Client) : Client := d.setTask task (.call call place)
  match call with
  | .start => if c.started then c.answerCall task call .done else c.launch task call
  | .keepalive => if c.started then c |> goTo .collecting else c.launch task call
  | .connect => c |> goTo (.connecting .asking)
  | .close => c.shutDown |> goTo .hangingUp
  | .send command => c.beginSend task call (.ok command)
  | .ask command patience => c.beginAsk task call command patience
  | .armAway code => c.beginSend task call (.ok (armAwayCommand code))
  | .armHome code => c.beginSend task call (.ok (armHomeCommand code))
  | .disarm code => c.beginSend task call (.ok (disarmCommand code))
  | .panic code => c.beginSend task call (.ok (panicCommand code))
  | .setAuxOutput number on => c.beginSend task call (switchCommand number on)
  | .update => c |> goTo (.updating freshBranches)
  | .panelInfo =>
    -- The version of a panel does not change, so it is asked for only once.
    match c.alarm.panel with
    | some info => c.answerCall task call (.panel info)
    | none =>
      c.beginAsk task call (RequestId.command .panelVersion) c.settings.requestTimeout
  | .refreshAuxOutputs =>
    c.beginAsk task call (RequestId.command .auxOutputs) c.settings.requestTimeout
  | .zone number => c.answerCall task call (.zone number (c.alarm.zone? number.toNat))

/-- The answer of a call that only has to be carried out. -/
def plainAnswer : Except Error Unit → Answer
  | .ok () => .done
  | .error e => .failed e

/-- A step of a call. -/
def callStep? (strand : Strand) (turn : Turn) (call : Call) (place : CallPlace) (c : Client) :
    Option Client :=
  let task := strand.task
  let goTo (place : CallPlace) (d : Client) : Client := d.setTask task (.call call place)
  let die (d : Client) : Client := d.finish task (.call call) .died
  match turn, place with
  | .own, .fresh => some (c.beginCall task call)
  | turn, .connecting place =>
    (c.connectStep? strand turn place).map fun
      | (d, .place place) => d |> goTo (.connecting place)
      | (d, .result r) => d.answerCall task call (plainAnswer r)
      | (d, .dies) => die d
  | turn, .sending line place =>
    (c.sendStep? strand turn line place).map fun
      | (d, .place place) => d |> goTo (.sending line place)
      | (d, .result r) => d.answerCall task call (plainAnswer r)
      | (d, .dies) => die d
  | turn, .requesting slot command patience line place =>
    (c.sendStep? strand turn line place).map fun
      | (d, .place place) => d |> goTo (.requesting slot command patience line place)
      | (d, .result (.ok ())) => d |> goTo (.awaiting slot command (d.deadline patience))
      | (d, .result (.error e)) => d.answerCall task call (.failed e)
      | (d, .dies) => die d
  | .own, .awaiting slot command deadline => c.awaitStep? task call slot command deadline
  | turn, .updating branches =>
    (c.updateStep? strand turn branches).map fun
      | (d, .place branches) => d |> goTo (.updating branches)
      | (d, .result r) => d.answerCall task call (plainAnswer r)
      | (d, .dies) => die d
  | .own, .launched handles =>
    let kept := { c with handles := some handles }
    match call with
    | .keepalive => some (kept |> goTo .collecting)
    | _ => some (kept.answerCall task call .done)
  | .own, .hangingUp => some (c.closeLink |> goTo .collecting)
  | .own, .collecting =>
    match call with
    | .keepalive => some (c.collect task call .joining)
    | _ =>
      some (c.collect task call fun handles => .stoppingRefresh handles (c.now + closeGrace))
  | .own, .joining handles =>
    if c.isOver handles.receive && c.isOver handles.refresh then
      some (c.answerCall task call .done)
    else none
  | .own, .stoppingRefresh handles deadline =>
    let next (d : Client) : Client :=
      d |> goTo (.stoppingReceive handles (d.now + closeGrace))
    if c.isOver handles.refresh then some (next c)
    else if deadline ≤ c.now then some (next (c.abort handles.refresh))
    else none
  | .own, .stoppingReceive handles deadline =>
    if c.isOver handles.receive then some (c.answerCall task call .done)
    else if deadline ≤ c.now then
      some ((c.abort handles.receive).answerCall task call .done)
    else none
  | _, _ => none

end Client

end AlarmPanel
