import AlarmPanel.Proofs.Client.Wiring

/-!
# The ledger of the client

Which answer a status request gets depends on a part of the client only: the slots and the table of open
requests, the status updates that have been taken in, the tasks and the handles of the background tasks.
`Client.ledger` is that part. Connecting, sending and updating leave it as it is, whatever they do to the
link and to the locks.
-/

namespace AlarmPanel

/-! ## The updates that have been taken in -/

/-- The status update whose taking in an effect reports. -/
def Effect.update? : Effect → Option StatusUpdate
  | .notified (.report (.received event)) => event.status?
  | _ => none

/-- Taking in an update is reported. -/
theorem Effect.reports_of_update? {effect : Effect} {update : StatusUpdate}
    (h : effect.update? = some update) : effect.reports = true := by
  unfold Effect.update? at h
  split at h
  next => rfl
  next => cases h

/-- The part of a client that the answers to status requests depend on. -/
structure Ledger where
  slots : List (Option StatusUpdate)
  openSlots : List (UInt8 × Nat)
  /-- The status updates that have been taken in, the earliest first. -/
  updates : List StatusUpdate
  handles : Option Handles
  tasks : List Task

namespace Client

/-- The status updates that the client has taken in, the earliest first. It reports every event that it
takes in, so they are those of the events in its log. -/
def updates (c : Client) : List StatusUpdate :=
  (c.log.filterMap fun entry => entry.effect.update?).reverse

def ledger (c : Client) : Ledger := ⟨c.slots, c.openSlots, c.updates, c.handles, c.tasks⟩

/-- Clients whose ledgers agree have taken in the same updates. -/
theorem updates_eq_of_ledger {c d : Client} (h : d.ledger = c.ledger) : d.updates = c.updates :=
  congrArg Ledger.updates h

theorem tasks_eq_of_ledger {c d : Client} (h : d.ledger = c.ledger) : d.tasks = c.tasks :=
  congrArg Ledger.tasks h

/-! ## Effects -/

@[simp] theorem updates_note (effect : Effect) (c : Client) :
    (c.note effect).updates = c.updates ++ effect.update?.toList := by
  cases h : effect.update? <;> simp [updates, note, h]

/-- What is done to the outside is not on the ledger, unless it reports that an event was taken in. -/
theorem ledger_note {effect : Effect} (h : effect.update? = none) (c : Client) :
    (c.note effect).ledger = c.ledger := by
  have hupdates : (c.note effect).updates = c.updates := by simp [h]
  simp only [ledger, hupdates]
  rfl

@[simp] theorem ledger_closeLink (c : Client) : c.closeLink.ledger = c.ledger :=
  ledger_note rfl _

/-- The update that a report of the client carries. -/
theorem updates_announce (report : Report) (c : Client) :
    (c.announce report).updates
      = c.updates ++ (Effect.notified (.report report)).update?.toList := by
  unfold announce notify
  cases h : c.handlers.for? report with
  | none => simp
  | some ending => simp [Effect.update?]

@[simp] theorem updates_announce_received (event : Event) (c : Client) :
    (c.announce (.received event)).updates = c.updates ++ event.status?.toList :=
  updates_announce _ _

/-- Announcing changes no other part of the ledger. -/
theorem ledger_announce (report : Report) (c : Client) :
    (c.announce report).ledger = { c.ledger with updates := (c.announce report).updates } := by
  unfold announce notify
  cases c.handlers.for? report <;> rfl

@[simp] theorem ledger_announce_changed (change : Change) (c : Client) :
    (c.announce (.changed change)).ledger = c.ledger := by
  rw [ledger_announce, updates_announce]
  simp [Effect.update?, ledger]

theorem ledger_foldl_announce_changed (changes : List Change) (c : Client) :
    (changes.foldl (fun d change => d.announce (.changed change)) c).ledger = c.ledger := by
  induction changes generalizing c with
  | nil => rfl
  | cons change changes ih => rw [List.foldl_cons, ih, ledger_announce_changed]

/-! ## Tasks -/

theorem ledger_setTask (task : Nat) (state : Task) (c : Client) :
    (c.setTask task state).ledger = { c.ledger with tasks := c.tasks.set task state } := rfl

/-- What is put in a task's place is on the ledger, and nothing else that its step does to the client. -/
theorem ledger_setTask_congr {c d : Client} (h : d.ledger = c.ledger) (task : Nat) (state : Task) :
    (d.setTask task state).ledger = (c.setTask task state).ledger := by
  rw [ledger_setTask, ledger_setTask, h, tasks_eq_of_ledger h]

/-! ## Connecting, sending and updating -/

/-- What connecting and sending do is not on the ledger. -/
theorem ledger_of_wired {c d : Client} (h : c.Wired d) : d.ledger = c.ledger := by
  obtain ⟨link, connectLock, backoff, writeLock, lastHeard, entries, rfl, hreports⟩ := h
  have hnone : entries.filterMap (fun entry => entry.effect.update?) = [] := by
    rw [List.filterMap_eq_nil_iff]
    intro entry hentry
    cases hupdate : entry.effect.update? with
    | none => rfl
    | some update =>
      have hreport := Effect.reports_of_update? hupdate
      rw [hreports entry hentry] at hreport
      cases hreport
  simp [ledger, updates, hnone]

/-- A strand that connects leaves the ledger as it is. -/
theorem ledger_connectStep? {strand : Strand} {turn : Turn} {place : ConnectPlace} {c : Client}
    {next : Client × Next ConnectPlace (Except Error Unit)}
    (h : c.connectStep? strand turn place = some next) : next.1.ledger = c.ledger :=
  ledger_of_wired (wired_connectStep? h)

/-- A strand that sends leaves the ledger as it is. -/
theorem ledger_sendStep? {strand : Strand} {turn : Turn} {line : String} {place : SendPlace} {c : Client}
    {next : Client × Next SendPlace (Except Error Unit)}
    (h : c.sendStep? strand turn line place = some next) : next.1.ledger = c.ledger :=
  ledger_of_wired (wired_sendStep? h)

/-- A branch of an update leaves the ledger as it is. -/
theorem ledger_updateStep? {strand : Strand} {turn : Turn} {branches : Branches} {c : Client}
    {next : Client × Next Branches (Except Error Unit)}
    (h : c.updateStep? strand turn branches = some next) : next.1.ledger = c.ledger :=
  ledger_of_wired (wired_updateStep? h)

/-! ## Taking in -/

theorem fillSlot_of_open {update : StatusUpdate} {slot : Nat} {c : Client}
    (h : c.openSlot? update.request.code = some slot) :
    c.fillSlot update
      = { c with
          slots := c.slots.set slot (some update)
          openSlots := c.openSlots.filter (·.1 ≠ update.request.code) } := by
  simp only [fillSlot, h]

theorem fillSlot_of_not_open {update : StatusUpdate} {c : Client}
    (h : c.openSlot? update.request.code = none) : c.fillSlot update = c := by
  simp only [fillSlot, h]

/-- Which slot is filled, and with what, is on the ledger. -/
theorem ledger_fillSlot_congr {c d : Client} (h : d.ledger = c.ledger) (update : StatusUpdate) :
    (d.fillSlot update).ledger = (c.fillSlot update).ledger := by
  have hslots : d.slots = c.slots := congrArg Ledger.slots h
  have hopenSlots : d.openSlots = c.openSlots := congrArg Ledger.openSlots h
  have hopen : d.openSlot? update.request.code = c.openSlot? update.request.code := by
    rw [openSlot?, openSlot?, hopenSlots]
  cases hc : c.openSlot? update.request.code with
  | none => rw [fillSlot_of_not_open hc, fillSlot_of_not_open (hopen.trans hc), h]
  | some slot =>
    rw [fillSlot_of_open hc, fillSlot_of_open (hopen.trans hc), hslots, hopenSlots]
    exact congrArg (fun ledger : Ledger =>
      { ledger with
        slots := c.slots.set slot (some update)
        openSlots := c.openSlots.filter (·.1 ≠ update.request.code) }) h

/-- Filling a slot changes the slots and the table of open requests, and nothing else. -/
theorem ledger_fillSlot (update : StatusUpdate) (c : Client) :
    (c.fillSlot update).ledger
      = { c.ledger with
          slots := (c.fillSlot update).slots
          openSlots := (c.fillSlot update).openSlots } := by
  cases h : c.openSlot? update.request.code with
  | none => rw [fillSlot_of_not_open h]; rfl
  | some slot => rw [fillSlot_of_open h]; rfl

/-- So does opening one. -/
theorem ledger_shareSlot (code : UInt8) (c : Client) :
    (c.shareSlot code).1.ledger
      = { c.ledger with
          slots := (c.shareSlot code).1.slots
          openSlots := (c.shareSlot code).1.openSlots } := by
  unfold shareSlot
  dsimp only
  split
  next =>
    split
    next => rfl
    next => rfl
  next => rfl

/-- The requests that an event answers, if any. -/
def answer (event : Event) (c : Client) : Client :=
  match event.status? with
  | some update => { c with lastHeard := some c.now }.fillSlot update
  | none => { c with lastHeard := some c.now }

theorem ledger_receive (event : Event) (c : Client) :
    (c.receive event).ledger = ((c.answer event).announce (.received event)).ledger :=
  ledger_foldl_announce_changed _ _

/-- An event that carries a status update answers the requests for it, and the update is on record. -/
theorem ledger_receive_status {event : Event} {update : StatusUpdate}
    (h : event.status? = some update) (c : Client) :
    (c.receive event).ledger
      = { c.ledger with
          slots := (c.fillSlot update).slots
          openSlots := (c.fillSlot update).openSlots
          updates := c.updates ++ [update] } := by
  have hheard : ({ c with lastHeard := some c.now } : Client).ledger = c.ledger := rfl
  have hanswer : (c.answer event).ledger = (c.fillSlot update).ledger := by
    simp only [answer, h]
    exact ledger_fillSlot_congr hheard update
  have hupdates : (c.answer event).updates = c.updates := by
    rw [updates_eq_of_ledger hanswer]
    exact congrArg Ledger.updates (ledger_fillSlot update c)
  -- The update goes on record when the event is announced, and by then its slot is filled.
  rw [ledger_receive, ledger_announce, updates_announce_received, hupdates, hanswer, h, ledger_fillSlot]
  rfl

/-- An event that carries none leaves the ledger as it is. -/
theorem ledger_receive_system {event : Event} (h : event.status? = none) (c : Client) :
    (c.receive event).ledger = c.ledger := by
  have hanswer : (c.answer event).ledger = c.ledger := by
    rw [answer, h]
    rfl
  rw [ledger_receive, ledger_announce, hanswer, updates_announce_received, h,
    updates_eq_of_ledger hanswer]
  simp [ledger]

/-- A line that carries a status update answers the requests for it, and the update is on record; every
other line leaves the ledger as it is. -/
theorem ledger_receiveLine (bytes : List UInt8) (c : Client) :
    (c.receiveLine bytes).ledger
      = match (eventOfBytes? bytes).bind Event.status? with
        | some update =>
          { c.ledger with
            slots := (c.fillSlot update).slots
            openSlots := (c.fillSlot update).openSlots
            updates := c.updates ++ [update] }
        | none => c.ledger := by
  unfold receiveLine
  cases eventOfBytes? bytes with
  | some event =>
    simp only [Option.bind_some]
    cases hstatus : event.status? with
    | some update => exact ledger_receive_status hstatus c
    | none => exact ledger_receive_system hstatus c
  | none => rfl

/-- A line adds to the record the status update that it carries, if it carries one. -/
theorem updates_receiveLine (bytes : List UInt8) (c : Client) :
    (c.receiveLine bytes).updates
      = c.updates ++ ((eventOfBytes? bytes).bind Event.status?).toList := by
  have hupdates := congrArg Ledger.updates (ledger_receiveLine bytes c)
  cases h : (eventOfBytes? bytes).bind Event.status? <;> simp only [h] at hupdates <;>
    simpa [ledger] using hupdates

/-- What a line does to the ledger depends on nothing but the ledger. -/
theorem ledger_receiveLine_congr {c d : Client} (h : d.ledger = c.ledger) (bytes : List UInt8) :
    (d.receiveLine bytes).ledger = (c.receiveLine bytes).ledger := by
  rw [ledger_receiveLine, ledger_receiveLine]
  cases (eventOfBytes? bytes).bind Event.status? with
  | some update =>
    have hfill := ledger_fillSlot_congr h update
    have hslots : (d.fillSlot update).slots = (c.fillSlot update).slots := congrArg Ledger.slots hfill
    have hopenSlots : (d.fillSlot update).openSlots = (c.fillSlot update).openSlots :=
      congrArg Ledger.openSlots hfill
    dsimp only
    rw [h, hslots, hopenSlots, updates_eq_of_ledger h]
  | none => exact h

end Client

end AlarmPanel
