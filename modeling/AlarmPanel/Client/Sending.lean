import AlarmPanel.Client.Basic

/-!
# Connecting and sending

Whoever needs the link to be up holds the connect lock while it sees to it: it closes a link that has been
silent for too long, and dials until the link is up or the client is closed, pausing longer after each dial
that fails. Whoever sends does that first, and then holds the write lock while it writes.

Each function here makes one step of a strand, or none while the strand has to wait.
-/

namespace AlarmPanel

namespace Client

/-! ## Connecting -/

/-- Whether the panel has been silent for too long; no answer if that time is no duration. A panel that
has never been heard of is not silent. -/
def isStale? (c : Client) : Option Bool :=
  match c.lastHeard with
  | none => some false
  | some last => c.settings.staleAfter?.map fun limit => limit.nanos < (c.now - last) * 1000000

def releaseConnect (c : Client) : Client := { c with connectLock := c.connectLock.release }

/-- The end of a dial. After a dial that fails the strand pauses. -/
def endDial (c : Client) : Client × Next ConnectPlace (Except Error Unit) :=
  let (link, outcome) := c.link.dial
  let dialed := { c with link }.note (.dialed outcome)
  match outcome with
  | .connected => ({ dialed with backoff := c.backoff.reset }, .place .announcing)
  | .refused | .unanswered =>
    ({ dialed with backoff := c.backoff.advance }, .place (.pausing (c.wakeTime c.backoff.delay)))

/-- Lets it be known that the link has come up, and hands the lock on. Until then nobody else sees to the link,
and if the strand is cut off before, nobody learns of the dial. -/
def announceLink (c : Client) : Client :=
  { c with lastHeard := some c.now }.notify .connected |>.releaseConnect

/-- A step of a strand that needs the link to be up. -/
def connectStep? (strand : Strand) (turn : Turn) (place : ConnectPlace) (c : Client) :
    Option (Client × Next ConnectPlace (Except Error Unit)) :=
  match turn, place with
  | .own, .asking => some ({ c with connectLock := c.connectLock.ask strand }, .place .queued)
  | .own, .queued =>
    if c.connectLock.holder = some strand then
      -- Only the holder closes a silent link, so that those behind it find the new one.
      match c.isStale? with
      | some true => some (c.closeLink, .place .checking)
      | some false => some (c, .place .checking)
      | none => some (c.releaseConnect, .dies)
    else none
  | .own, .checking =>
    if c.link.up then some (c.releaseConnect, .result (.ok ()))
    else if c.closed then some (c.releaseConnect, .result (.error .closed))
    else
      -- The lock is kept through dials and pauses: nobody else dials in the meantime.
      let dialing := c.note (.dialing strand)
      if c.link.dialsSuspend then some (dialing, .place .dialing) else some dialing.endDial
  | .link, .dialing => some c.endDial
  | .own, .announcing => some (c.announceLink, .result (.ok ()))
  | .own, .pausing wake => if wake ≤ c.now then some (c, .place .checking) else none
  | .signal, .pausing _ =>
    if c.shutdown then some (c.releaseConnect, .result (.error .closed)) else none
  | _, _ => none

/-! ## Sending -/

/-- Goes on from connecting to writing. -/
def afterConnect : Client × Next ConnectPlace (Except Error Unit) →
    Client × Next SendPlace (Except Error Unit)
  | (c, .place place) => (c, .place (.connecting place))
  | (c, .result (.ok ())) => (c, .place .asking)
  | (c, .result (.error e)) => (c, .result (.error e))
  | (c, .dies) => (c, .dies)

/-- The end of a write. -/
def endWrite (strand : Strand) (line : String) (c : Client) :
    Client × Next SendPlace (Except Error Unit) :=
  let (link, written) := c.link.write
  let released := { c with link, writeLock := c.writeLock.release }
  if written then (released.note (.wrote strand line), .result (.ok ()))
  else (released, .result (.error (.io "broken")))

/-- A step of a strand that sends a line. -/
def sendStep? (strand : Strand) (turn : Turn) (line : String) (place : SendPlace) (c : Client) :
    Option (Client × Next SendPlace (Except Error Unit)) :=
  match turn, place with
  | turn, .connecting place => (c.connectStep? strand turn place).map afterConnect
  | .own, .asking => some ({ c with writeLock := c.writeLock.ask strand }, .place .queued)
  | .own, .queued =>
    if c.writeLock.holder = some strand then
      if c.link.writesSuspend then some (c, .place .writing) else some (c.endWrite strand line)
    else none
  | .link, .writing => some (c.endWrite strand line)
  | _, _ => none

/-! ## Updating -/

/-- All branches of an update at their beginning. -/
def freshBranches : Branches := updateCommands.map fun _ => some (.connecting .asking)

/-- The line that a branch of an update sends. -/
def branchLine (branch : Nat) : String := requestLine (updateCommands.getD branch "")

/-- Goes on with an update after a step of one of its branches: the first error ends it, and it is through
when all branches are. -/
def afterBranch (branches : Branches) (branch : Nat) :
    Client × Next SendPlace (Except Error Unit) → Client × Next Branches (Except Error Unit)
  | (c, .place place) => (c, .place (branches.set branch (some place)))
  | (c, .result (.ok ())) =>
    let rest := branches.set branch none
    (c, if rest.all Option.isNone then .result (.ok ()) else .place rest)
  | (c, .result (.error e)) => (c, .result (.error e))
  | (c, .dies) => (c, .dies)

/-- A step of one branch of an update. -/
def updateStep? (strand : Strand) (turn : Turn) (branches : Branches) (c : Client) :
    Option (Client × Next Branches (Except Error Unit)) :=
  match branches[strand.branch]? with
  | some (some place) =>
    (c.sendStep? strand turn (branchLine strand.branch) place).map
      (afterBranch branches strand.branch)
  | _ => none

end Client

end AlarmPanel
