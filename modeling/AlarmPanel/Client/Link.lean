import AlarmPanel.Error

/-!
# The link to the panel

A link carries lines both ways while it is up. What is to come in is queued on it, and lost when it goes
down before its turn; only what is queued behind the far end's hanging up waits for the next link. How
dials and writes end is part of the link: so many dials are still to be refused, so many more to end
without a link, and so many writes to fail.
-/

namespace AlarmPanel

/-- What comes in on a link. -/
inductive Incoming
  | line (bytes : List UInt8)
  /-- The far end hangs up. -/
  | hangUp
  deriving DecidableEq, Repr

/-- How a dial ends. -/
inductive DialOutcome
  | refused
  /-- No error, and no link either. -/
  | unanswered
  | connected
  deriving DecidableEq, Repr

/-- How a read ends. -/
inductive ReadOutcome
  | line (bytes : List UInt8)
  /-- The link that was read from is gone. -/
  | gone
  deriving DecidableEq, Repr

structure Link where
  up : Bool
  /-- How often the link has come up. A read belongs to the link that was up when it began. -/
  number : Nat
  incoming : List Incoming
  refusals : Nat
  /-- How many dials that are not refused still end without a link. -/
  unanswered : Nat
  writeFaults : Nat
  /-- Whether a read that is under way goes on waiting when its link goes down. -/
  readsLinger : Bool
  /-- Whether a dial takes time, so that something else may happen before it ends. -/
  dialsSuspend : Bool
  writesSuspend : Bool
  /-- Whether the link stays up when a write fails. -/
  faultsSpare : Bool
  deriving DecidableEq, Repr

namespace Link

/-- A link that is down and on which nothing fails. -/
def new (readsLinger dialsSuspend writesSuspend : Bool) : Link :=
  { up := false, number := 0, incoming := [], refusals := 0, unanswered := 0, writeFaults := 0,
    readsLinger, dialsSuspend, writesSuspend, faultsSpare := false }

/-- The link goes down, and what was to come in is lost. -/
def takeDown (l : Link) : Link := { l with up := false, incoming := [] }

/-- The end of a dial. -/
def dial (l : Link) : Link × DialOutcome :=
  if 0 < l.refusals then ({ l with refusals := l.refusals - 1 }, .refused)
  else if 0 < l.unanswered then ({ l with unanswered := l.unanswered - 1 }, .unanswered)
  else ({ l with up := true, number := l.number + 1 }, .connected)

/-- The end of a write: whether the text has been written. A write that fails may take the link down. -/
def write (l : Link) : Link × Bool :=
  if 0 < l.writeFaults then
    let failed := { l with writeFaults := l.writeFaults - 1 }
    (if l.faultsSpare then failed else failed.takeDown, false)
  else (l, true)

/-- The end of a read that began on the link with this number, unless it still waits. -/
def read? (number : Nat) (l : Link) : Option (Link × ReadOutcome) :=
  if l.up ∧ l.number = number then
    match l.incoming with
    | [] => none
    | .line bytes :: rest => some ({ l with incoming := rest }, .line bytes)
    | .hangUp :: rest => some ({ l with up := false, incoming := rest }, .gone)
  else if l.readsLinger ∧ l.incoming.isEmpty then none
  else some (l, .gone)

/-- A dial leaves the link up exactly if it connects. -/
theorem dial_up {l : Link} (h : l.up = false) : l.dial.1.up = true ↔ l.dial.2 = .connected := by
  unfold dial
  split
  · simp [h]
  · split <;> simp [h]

end Link

end AlarmPanel
