import AlarmPanel.Client.Report
import AlarmPanel.Client.Request
import AlarmPanel.Client.Task
import AlarmPanel.Settings.Client

/-!
# The client

The client keeps the link to the panel up, sends commands on it and follows the alarm. Its state holds
what its tasks share: the link, the two locks, the table of open requests, the alarm and the signal to
shut down; and the tasks themselves. A task runs alone from one place to the next, and any task may run
after it.

Every answer to a status request goes into a slot. The table of open requests leads from the code of a
request to the slot that its next answer fills, and all who wait for that answer share the slot.
-/

namespace AlarmPanel

structure Client where
  settings : ClientSettings
  handlers : Handlers
  /-- Milliseconds since the client was set up. -/
  now : Nat
  link : Link
  closed : Bool
  /-- Whether the background tasks have been launched. -/
  started : Bool
  /-- The signal to shut down. -/
  shutdown : Bool
  connectLock : Lock
  backoff : Backoff
  writeLock : Lock
  /-- When the panel was last heard of. -/
  lastHeard : Option Nat
  slots : List (Option StatusUpdate)
  /-- The table of open requests. -/
  openSlots : List (UInt8 × Nat)
  /-- The handles of the background tasks, until a call takes them. -/
  handles : Option Handles
  alarm : Alarm
  tasks : List Task
  /-- What the client has done to the outside, the latest first. -/
  log : List LogEntry

/-- How long closing waits for each background task: two seconds. -/
def closeGrace : Nat := 2000

namespace Client

/-- A client that has not been called yet. -/
def new (settings : ClientSettings) (handlers : Handlers) (link : Link) : Client :=
  { settings, handlers, now := 0, link, closed := false, started := false, shutdown := false,
    connectLock := Lock.free, backoff := settings.backoff, writeLock := Lock.free,
    lastHeard := none, slots := [], openSlots := [], handles := none,
    alarm := Alarm.new settings.inferArming, tasks := [], log := [] }

/-- When a pause that begins now ends. -/
def wakeTime (pause : Duration) (c : Client) : Nat := c.now + pause.pauseMillis

/-- When patience that begins now is at its end. Unlike a pause it may last longer than thirty years. -/
def deadline (patience : Duration) (c : Client) : Nat := c.now + patience.ceilMillis

/-! ## Effects -/

def note (effect : Effect) (c : Client) : Client := { c with log := ⟨c.now, effect⟩ :: c.log }

def notify (notice : Notice) (c : Client) : Client := c.note (.notified notice)

/-- Calls the handler for a report, if there is one, and then broadcasts the report, whether the handler
returns or breaks off. -/
def announce (report : Report) (c : Client) : Client :=
  let called := match c.handlers.for? report with
    | some ending => c.note (.called report ending)
    | none => c
  called.notify (.report report)

/-- Closes the link from this end. -/
def closeLink (c : Client) : Client := { c with link := c.link.takeDown }.note .closedLink

/-! ## Tasks -/

def setTask (task : Nat) (state : Task) (c : Client) : Client :=
  { c with tasks := c.tasks.set task state }

/-- Starts a task, after all others in the list. -/
def addTask (state : Task) (c : Client) : Client := { c with tasks := c.tasks ++ [state] }

/-- Takes from a task what it holds and asks for. -/
def withdraw (task : Nat) (c : Client) : Client :=
  { c with connectLock := c.connectLock.withdraw task, writeLock := c.writeLock.withdraw task }

/-- Ends a task. -/
def finish (task : Nat) (role : Role) (ending : Ending) (c : Client) : Client :=
  (c.withdraw task).setTask task (.over role ending)

def isOver (task : Nat) (c : Client) : Bool :=
  match c.tasks[task]? with
  | some state => state.isOver
  | none => true

/-- Ends a task from outside, unless it is over. -/
def abort (task : Nat) (c : Client) : Client :=
  match c.tasks[task]? with
  | some state => if state.isOver then c else c.finish task state.role .aborted
  | none => c

/-- Whether anybody would see the signal to shut down. -/
def hasListener (c : Client) : Bool := c.tasks.any Task.listens

end Client

end AlarmPanel
