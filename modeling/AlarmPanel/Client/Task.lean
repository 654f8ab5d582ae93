import AlarmPanel.Client.Lock
import AlarmPanel.Alarm
import AlarmPanel.Duration

/-!
# The client's tasks

The client runs one task for each call and two in the background: one receives, the other asks for the
panel's status again and again. A task stands at one of a few places between two steps, and these places
are data, so that what a task can do next depends on nothing but its place and the client.
-/

namespace AlarmPanel

/-! ## Parts that several tasks share -/

/-- Where a strand stands that needs the link to be up. From `checking` on it holds the connect lock. -/
inductive ConnectPlace
  /-- About to ask for the connect lock. -/
  | asking
  | queued
  /-- About to see whether the link is up, and to dial if it is not. -/
  | checking
  /-- In a dial that takes time. -/
  | dialing
  /-- After a dial that connected, and about to let it be known. -/
  | announcing
  /-- After a dial that failed. -/
  | pausing (wake : Nat)
  deriving DecidableEq, Repr

/-- Where a strand stands that sends a line. -/
inductive SendPlace
  | connecting (place : ConnectPlace)
  /-- About to ask for the write lock. -/
  | asking
  | queued
  /-- In a write that takes time. -/
  | writing
  deriving DecidableEq, Repr

/-- Where the branches of an update stand; those that are through stand nowhere. -/
abbrev Branches := List (Option SendPlace)

/-- The two background tasks, by their places in the list of tasks. -/
structure Handles where
  receive : Nat
  refresh : Nat
  deriving DecidableEq, Repr

/-- What makes a strand go on. -/
inductive Turn
  /-- Its own turn, and nothing that it waits for. -/
  | own
  /-- The end of a dial or of a write that took time. -/
  | link
  /-- The signal to shut down. -/
  | signal
  deriving DecidableEq, Repr

/-- How a strand goes on after a step. -/
inductive Next (Place Result : Type)
  | place (place : Place)
  | result (result : Result)
  /-- It ends without a result, and its task with it. -/
  | dies
  deriving Repr

/-! ## The background tasks -/

inductive ReceivePlace
  /-- About to see whether the client is closed. -/
  | fresh
  | connecting (place : ConnectPlace)
  /-- In a read that began on the link with this number. -/
  | reading (link : Nat)
  deriving DecidableEq, Repr

inductive RefreshPlace
  | fresh
  /-- Between two updates. -/
  | resting (wake : Nat)
  | updating (branches : Branches)
  deriving DecidableEq, Repr

/-! ## Calls -/

/-- What a user can ask of the client. -/
inductive Call
  | start
  | keepalive
  | connect
  | close
  | send (command : String)
  /-- Sends a status request and waits for its answer. -/
  | ask (command : String) (patience : Duration)
  | armAway (code : Option String)
  | armHome (code : Option String)
  | disarm (code : String)
  | panic (code : String)
  | setAuxOutput (number : UInt8) (on : Bool)
  | update
  | panelInfo
  | refreshAuxOutputs
  | zone (number : UInt8)
  deriving DecidableEq

inductive Answer
  | done
  | failed (error : Error)
  | status (update : StatusUpdate)
  | panel (info : PanelInfo)
  | auxOutputs (flags : FlagSet AuxOutput)
  /-- What is known of the zone, if there is such a zone. -/
  | zone (number : UInt8) (known : Option (Option Bool))
  deriving DecidableEq, Repr

inductive CallPlace
  | fresh
  | connecting (place : ConnectPlace)
  | sending (line : String) (place : SendPlace)
  /-- Sending a status request, with a slot for its answer. -/
  | requesting (slot : Nat) (command : String) (patience : Duration) (line : String)
      (place : SendPlace)
  /-- Waiting for the slot to be filled. -/
  | awaiting (slot : Nat) (command : String) (deadline : Nat)
  | updating (branches : Branches)
  /-- The background tasks are launched, and their handles not yet kept. -/
  | launched (handles : Handles)
  /-- Closed, and about to close the link. -/
  | hangingUp
  /-- About to take the handles of the background tasks. -/
  | collecting
  /-- Waiting for both background tasks to be over. -/
  | joining (handles : Handles)
  /-- Waiting for the refresh task to be over, and then for the receive task. -/
  | stoppingRefresh (handles : Handles) (deadline : Nat)
  | stoppingReceive (handles : Handles) (deadline : Nat)
  deriving DecidableEq

/-! ## Tasks -/

inductive Role
  | receive
  | refresh
  | call (call : Call)
  deriving DecidableEq

inductive Ending
  | stopped
  | answered (answer : Answer)
  | died
  | aborted
  deriving DecidableEq, Repr

inductive Task
  | receive (place : ReceivePlace)
  | refresh (place : RefreshPlace)
  | call (call : Call) (place : CallPlace)
  | over (role : Role) (ending : Ending)
  deriving DecidableEq

namespace SendPlace

def connectPlace? : SendPlace → Option ConnectPlace
  | .connecting place => some place
  | _ => none

end SendPlace

namespace Task

def role : Task → Role
  | .receive _ => .receive
  | .refresh _ => .refresh
  | .call asked _ => .call asked
  | .over role _ => role

def isOver : Task → Bool
  | .over _ _ => true
  | _ => false

/-- The branches that the task carries on side by side. A refresh task has one more than its update. -/
def branches : Task → List Nat
  | .refresh (.updating branches) => List.range (branches.length + 1)
  | .call _ (.updating branches) => List.range branches.length
  | .over _ _ => []
  | _ => [0]

/-- Where the strands of the task stand that send a line. -/
def sends : Task → List SendPlace
  | .refresh (.updating branches) => branches.filterMap id
  | .call _ (.sending _ place) => [place]
  | .call _ (.requesting _ _ _ _ place) => [place]
  | .call _ (.updating branches) => branches.filterMap id
  | _ => []

/-- Where the strands of the task stand that need the link to be up. -/
def connects : Task → List ConnectPlace
  | .receive (.connecting place) => [place]
  | .call _ (.connecting place) => [place]
  | task => task.sends.filterMap SendPlace.connectPlace?

/-- The times that the task waits for. -/
def deadlines (task : Task) : List Nat :=
  let pauses := task.connects.filterMap fun
    | .pausing wake => some wake
    | _ => none
  match task with
  | .refresh (.resting wake) => [wake]
  | .call _ (.awaiting _ _ deadline) => [deadline]
  | .call _ (.stoppingRefresh _ deadline) => [deadline]
  | .call _ (.stoppingReceive _ deadline) => [deadline]
  | _ => pauses

/-- Whether the task listens for the signal to shut down: the refresh task does from its first step on,
and every strand does that pauses after a failed dial. -/
def listens (task : Task) : Bool :=
  let pauses := task.connects.any fun
    | .pausing _ => true
    | _ => false
  match task with
  | .refresh .fresh => false
  | .refresh _ => true
  | _ => pauses

end Task

end AlarmPanel
