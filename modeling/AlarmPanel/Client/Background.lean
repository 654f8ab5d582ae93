import AlarmPanel.Client.Intake
import AlarmPanel.Client.Sending

/-!
# The background tasks

The receive task keeps the link up and takes in what comes from it, until the client is closed. The refresh
task asks for the panel's status at the end of each update interval, until it is told to shut down.
-/

namespace AlarmPanel

namespace Client

/-! ## Receiving -/

/-- The receive task has lost the link: it makes that known and goes round again, unless the client is
closed. -/
def loseLink (task : Nat) (c : Client) : Client :=
  if c.closed then c.finish task .receive .stopped
  else (c.notify .disconnected).setTask task (.receive .fresh)

/-- The receive task begins to read, if there is a link to read from. -/
def beginRead (task : Nat) (c : Client) : Client :=
  if c.link.up then c.setTask task (.receive (.reading c.link.number)) else c.loseLink task

/-- A step of the receive task. -/
def receiveStep? (strand : Strand) (turn : Turn) (place : ReceivePlace) (c : Client) :
    Option Client :=
  let task := strand.task
  match turn, place with
  | .own, .fresh =>
    if c.closed then some (c.finish task .receive .stopped)
    else some (c.setTask task (.receive (.connecting .asking)))
  | turn, .connecting place =>
    (c.connectStep? strand turn place).map fun
      | (d, .place place) => d.setTask task (.receive (.connecting place))
      | (d, .result (.ok ())) => d.beginRead task
      | (d, .result (.error _)) => d.finish task .receive .stopped
      | (d, .dies) => d.finish task .receive .died
  | .own, .reading number =>
    (c.link.read? number).map fun
      | (link, .line bytes) => ({ c with link }.receiveLine bytes).beginRead task
      | (link, .gone) => { c with link }.loseLink task
  | _, _ => none

/-! ## Refreshing -/

/-- The refresh task rests until the next update. -/
def rest (task : Nat) (c : Client) : Client :=
  c.setTask task (.refresh (.resting (c.wakeTime c.settings.updateInterval)))

/-- A step of the refresh task. Beside the branches of an update it has one more, in which it listens for
the signal to shut down. -/
def refreshStep? (strand : Strand) (turn : Turn) (place : RefreshPlace) (c : Client) :
    Option Client :=
  let task := strand.task
  match turn, place with
  | .own, .fresh => some (c.rest task)
  | .own, .resting wake =>
    if wake ≤ c.now then
      if c.closed then some (c.finish task .refresh .stopped)
      else some (c.setTask task (.refresh (.updating freshBranches)))
    else none
  | .signal, .resting _ => if c.shutdown then some (c.finish task .refresh .stopped) else none
  | turn, .updating branches =>
    if strand.branch = branches.length then
      -- The branch beside the update: the signal cuts the update off.
      if turn = .signal ∧ c.shutdown then some (c.finish task .refresh .stopped) else none
    else
      (c.updateStep? strand turn branches).map fun
        | (d, .place branches) => d.setTask task (.refresh (.updating branches))
        | (d, .result _) => (d.withdraw task).rest task
        | (d, .dies) => d.finish task .refresh .died
  | _, _ => none

end Client

end AlarmPanel
