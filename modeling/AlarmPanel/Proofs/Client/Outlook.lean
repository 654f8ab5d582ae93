import AlarmPanel.Proofs.Client.Steps
import AlarmPanel.Proofs.Frame.Fields

/-!
# The outlook of the client

What the client lets be known depends on a part of it only: its handlers and its alarm, and whether it is
closed and told to shut down. `Client.outlook` is that part, with what has been reported. Two things change
it, the taking in of a line (`Client.outlook_receiveLine`) and the first step of a call that closes the
client; whatever else happens leaves it as it is (`Client.outlook_of_perform?`).
-/

namespace AlarmPanel

/-! ## Reports -/

/-- What the client does about a report: it calls the handler for it, if there is one, and then broadcasts
the report. -/
def Handlers.effects (h : Handlers) (report : Report) : List Effect :=
  ((h.for? report).map (.called report)).toList ++ [.notified (.report report)]

/-- What is reported when an alarm takes in an event: the event, and then each change. -/
def Alarm.reportsOf (event : Event) (a : Alarm) : List Report :=
  .received event :: (a.handle event).2.map .changed

theorem Handlers.effects_reports (h : Handlers) (report : Report) :
    ∀ effect ∈ h.effects report, effect.reports = true := by
  intro effect heffect
  rcases List.mem_append.mp heffect with hcalled | hnotified
  · obtain ⟨ending, -, rfl⟩ := Option.map_eq_some_iff.mp (Option.mem_toList.mp hcalled)
    rfl
  · rw [List.mem_singleton.mp hnotified]
    rfl

/-- The part of a client that what it lets be known depends on. -/
structure Outlook where
  handlers : Handlers
  closed : Bool
  shutdown : Bool
  alarm : Alarm
  /-- The calls of handlers and the broadcasts of reports, the earliest first. -/
  reported : List Effect

/-- The outlook after a line. -/
def Outlook.takeIn (bytes : List UInt8) (o : Outlook) : Outlook :=
  match eventOfBytes? bytes with
  | some event =>
    { o with
      alarm := (o.alarm.handle event).1
      reported := o.reported ++ (o.alarm.reportsOf event).flatMap o.handlers.effects }
  | none => o

theorem Outlook.closed_takeIn (bytes : List UInt8) (o : Outlook) : (o.takeIn bytes).closed = o.closed := by
  unfold takeIn
  split <;> rfl

theorem Outlook.shutdown_takeIn (bytes : List UInt8) (o : Outlook) :
    (o.takeIn bytes).shutdown = o.shutdown := by
  unfold takeIn
  split <;> rfl

namespace Client

variable {c d e : Client}

/-- What the client has done to the outside, the earliest first. -/
def effects (c : Client) : List Effect := (c.log.map (·.effect)).reverse

def outlook (c : Client) : Outlook :=
  ⟨c.handlers, c.closed, c.shutdown, c.alarm, c.effects.filter Effect.reports⟩

/-! ## Taking in -/

theorem effects_note (effect : Effect) (c : Client) : (c.note effect).effects = c.effects ++ [effect] := by
  simp [effects, note]

theorem effects_announce (report : Report) (c : Client) :
    (c.announce report).effects = c.effects ++ c.handlers.effects report := by
  unfold announce notify
  cases h : c.handlers.for? report with
  | none => simp [effects_note, Handlers.effects, h]
  | some ending => simp [effects_note, Handlers.effects, h]

/-- Announcing is noted in the log, and that is all. -/
theorem exists_announce (report : Report) (c : Client) : ∃ log, c.announce report = { c with log } := by
  unfold announce notify note
  cases c.handlers.for? report <;> exact ⟨_, rfl⟩

theorem exists_foldl_announce (changes : List Change) (c : Client) :
    ∃ log, changes.foldl (fun d change => d.announce (.changed change)) c = { c with log } := by
  induction changes generalizing c with
  | nil => exact ⟨c.log, rfl⟩
  | cons change changes ih =>
    obtain ⟨log, hannounce⟩ := exists_announce (.changed change) c
    rw [List.foldl_cons, hannounce]
    exact ih _

theorem effects_foldl_announce (changes : List Change) (c : Client) :
    (changes.foldl (fun d change => d.announce (.changed change)) c).effects
      = c.effects ++ (changes.map .changed).flatMap c.handlers.effects := by
  induction changes generalizing c with
  | nil => simp
  | cons change changes ih =>
    have hhandlers : (c.announce (.changed change)).handlers = c.handlers := by
      obtain ⟨log, hannounce⟩ := exists_announce (.changed change) c
      rw [hannounce]
    rw [List.foldl_cons, ih, hhandlers, effects_announce, List.append_assoc]
    rfl

/-- Answering the requests for a status changes the slots and the table of them. -/
theorem exists_answer (event : Event) (c : Client) :
    ∃ slots openSlots, c.answer event = { c with lastHeard := some c.now, slots, openSlots } := by
  unfold answer
  split
  next update =>
    unfold fillSlot
    dsimp only
    split <;> exact ⟨_, _, rfl⟩
  next => exact ⟨_, _, rfl⟩

/-- The alarm takes in an event that has been reported, and the changes are reported. -/
def follow (event : Event) (c : Client) : Client :=
  (c.alarm.handle event).2.foldl (fun d change => d.announce (.changed change))
    { c with alarm := (c.alarm.handle event).1 }

theorem receive_eq (event : Event) (c : Client) :
    c.receive event = ((c.answer event).announce (.received event)).follow event := rfl

/-- Taking in an event answers the requests for it, changes the alarm and notes what is reported, and that is
all. Handlers are called in between and change nothing, however their calls end. -/
theorem exists_receive (event : Event) (c : Client) :
    ∃ slots openSlots log,
      c.receive event
        = { c with
            lastHeard := some c.now, slots, openSlots, alarm := (c.alarm.handle event).1, log } := by
  obtain ⟨slots, openSlots, hanswer⟩ := exists_answer event c
  rw [receive_eq, hanswer]
  obtain ⟨log, hannounce⟩ :=
    exists_announce (.received event) { c with lastHeard := some c.now, slots, openSlots }
  rw [hannounce]
  obtain ⟨log', hfollow⟩ := exists_foldl_announce (c.alarm.handle event).2
    { c with lastHeard := some c.now, slots, openSlots, alarm := (c.alarm.handle event).1, log }
  exact ⟨slots, openSlots, log', hfollow⟩

/-- An event that is taken in is reported, and then each change that it makes. -/
theorem effects_receive (event : Event) (c : Client) :
    (c.receive event).effects = c.effects ++ (c.alarm.reportsOf event).flatMap c.handlers.effects := by
  let heard (slots) (openSlots) : Client := { c with lastHeard := some c.now, slots, openSlots }
  obtain ⟨slots, openSlots, hanswer⟩ := exists_answer event c
  obtain ⟨log, hannounce⟩ := exists_announce (.received event) (heard slots openSlots)
  have hreported : ({ heard slots openSlots with log } : Client).effects =
      c.effects ++ c.handlers.effects (.received event) := by
    rw [← hannounce]
    exact effects_announce _ _
  have hfollow : (({ heard slots openSlots with log } : Client).follow event).effects =
      ({ heard slots openSlots with log } : Client).effects ++
        ((c.alarm.handle event).2.map .changed).flatMap c.handlers.effects :=
    effects_foldl_announce _ _
  have hreceive : c.receive event = ({ heard slots openSlots with log } : Client).follow event := by
    rw [receive_eq, hanswer]
    exact congrArg (follow event) hannounce
  rw [hreceive, hfollow, hreported, List.append_assoc]
  rfl

theorem filter_reports_effects (h : Handlers) (reports : List Report) :
    (reports.flatMap h.effects).filter Effect.reports = reports.flatMap h.effects := by
  rw [List.filter_eq_self]
  intro effect heffect
  obtain ⟨report, -, hreport⟩ := List.mem_flatMap.mp heffect
  exact h.effects_reports report effect hreport

/-- A line that is an event changes the outlook by its event; any other line leaves it as it is. -/
theorem outlook_receiveLine (bytes : List UInt8) (c : Client) :
    (c.receiveLine bytes).outlook = c.outlook.takeIn bytes := by
  unfold receiveLine Outlook.takeIn
  cases eventOfBytes? bytes with
  | none => rfl
  | some event =>
    have heffects := congrArg (List.filter Effect.reports) (effects_receive event c)
    rw [List.filter_append, filter_reports_effects] at heffects
    obtain ⟨slots, openSlots, log, hreceive⟩ := exists_receive event c
    simp only [hreceive] at heffects ⊢
    simp only [outlook, heffects]

/-! ## Steps -/

theorem outlook_of_wired (h : c.Wired d) : d.outlook = c.outlook := by
  obtain ⟨link, connectLock, backoff, writeLock, lastHeard, entries, rfl, hreports⟩ := h
  have hnone : (entries.map (·.effect)).reverse.filter Effect.reports = [] := by
    rw [List.filter_eq_nil_iff]
    intro effect heffect
    obtain ⟨entry, hentry, rfl⟩ := List.mem_map.mp (List.mem_reverse.mp heffect)
    simp [hreports entry hentry]
  simp [outlook, effects, hnone]

/-- The line that a step of the receive task reads, if it reads one. -/
def lineReadAt? (turn : Turn) (place : ReceivePlace) (link : Link) : Option (List UInt8) :=
  match turn, place with
  | .own, .reading number =>
    (link.read? number).bind fun
      | (_, .line bytes) => some bytes
      | (_, .gone) => none
  | _, _ => none

theorem outlook_loseLink (task : Nat) (c : Client) : (c.loseLink task).outlook = c.outlook := by
  unfold loseLink
  split
  next => rfl
  next =>
    have hnotify : (c.notify .disconnected).outlook = c.outlook := outlook_of_wired (.note rfl c)
    exact hnotify

theorem outlook_beginRead (task : Nat) (c : Client) : (c.beginRead task).outlook = c.outlook := by
  unfold beginRead
  split
  next => rfl
  next => exact outlook_loseLink task c

theorem outlook_abort (task : Nat) (c : Client) : (c.abort task).outlook = c.outlook := by
  unfold abort
  split
  next =>
    split
    next => rfl
    next => rfl
  next => rfl

/-- The receive task takes in the lines that it reads, and that is all that shows. -/
theorem outlook_receiveStep? {strand : Strand} {turn : Turn} {place : ReceivePlace}
    (h : c.receiveStep? strand turn place = some d) :
    d.outlook = (lineReadAt? turn place c.link).elim c.outlook c.outlook.takeIn := by
  unfold receiveStep? at h
  dsimp only at h
  split at h
  next =>
    split at h
    next => cases h; rfl
    next => cases h; rfl
  next _ _ place =>
    obtain ⟨⟨e, next⟩, hstep, rfl⟩ := Option.map_eq_some_iff.mp h
    have he : e.outlook = c.outlook := outlook_of_wired (wired_connectStep? hstep)
    have hnone : lineReadAt? turn (.connecting place) c.link = none := by cases turn <;> rfl
    rw [hnone]
    rcases next with place | (_ | ⟨⟩) | _
    · exact he
    · exact he
    · exact (outlook_beginRead strand.task e).trans he
    · exact he
  next number =>
    obtain ⟨⟨link, outcome⟩, hread, rfl⟩ := Option.map_eq_some_iff.mp h
    cases outcome with
    | line bytes =>
      have hline : lineReadAt? .own (.reading number) c.link = some bytes := by simp [lineReadAt?, hread]
      rw [hline]
      exact (outlook_beginRead strand.task _).trans (outlook_receiveLine bytes { c with link })
    | gone =>
      have hnone : lineReadAt? .own (.reading number) c.link = none := by simp [lineReadAt?, hread]
      rw [hnone]
      exact outlook_loseLink strand.task { c with link }
  next => cases h

theorem outlook_refreshStep? {strand : Strand} {turn : Turn} {place : RefreshPlace}
    (h : c.refreshStep? strand turn place = some d) : d.outlook = c.outlook := by
  unfold refreshStep? at h
  dsimp only at h
  split at h
  next => cases h; rfl
  next =>
    split at h
    next =>
      split at h
      next => cases h; rfl
      next => cases h; rfl
    next => cases h
  next =>
    split at h
    next => cases h; rfl
    next => cases h
  next turn branches =>
    split at h
    next =>
      split at h
      next => cases h; rfl
      next => cases h
    next =>
      obtain ⟨⟨e, next⟩, hstep, rfl⟩ := Option.map_eq_some_iff.mp h
      have he : e.outlook = c.outlook := outlook_of_wired (wired_updateStep? hstep)
      rcases next with place | result | _ <;> exact he
  next => cases h

theorem outlook_shareSlot (code : UInt8) (c : Client) : (c.shareSlot code).1.outlook = c.outlook := by
  unfold shareSlot
  dsimp only
  split
  next => split <;> rfl
  next => rfl

theorem outlook_beginSend (task : Nat) (call : Call) (command : Except Error String) (c : Client) :
    (c.beginSend task call command).outlook = c.outlook := by
  unfold beginSend
  split <;> rfl

theorem outlook_beginAsk (task : Nat) (call : Call) (command : String) (patience : Duration) (c : Client) :
    (c.beginAsk task call command patience).outlook = c.outlook := by
  unfold beginAsk
  split
  next => rfl
  next code _ =>
    dsimp only
    split <;> exact outlook_shareSlot code c

/-- Closing is what the first step of a call can do to the outlook. -/
theorem outlook_beginCall (task : Nat) (call : Call) (c : Client) :
    (c.beginCall task call).outlook = if call = .close then c.shutDown.outlook else c.outlook := by
  cases call with
  | close => rfl
  | start | keepalive =>
    simp only [beginCall]
    split <;> rfl
  | panelInfo =>
    simp only [beginCall]
    split
    next => rfl
    next => exact outlook_beginAsk ..
  | ask | refreshAuxOutputs => exact outlook_beginAsk ..
  | send | armAway | armHome | disarm | panic | setAuxOutput => exact outlook_beginSend ..
  | connect | update | zone => rfl

theorem outlook_awaitStep? {task : Nat} {call : Call} {slot : Nat} {command : String} {deadline : Nat}
    (h : c.awaitStep? task call slot command deadline = some d) : d.outlook = c.outlook := by
  unfold awaitStep? at h
  split at h
  next => cases h; rfl
  next =>
    split at h
    next => cases h; rfl
    next =>
      split at h
      next => cases h; rfl
      next => cases h

theorem outlook_collect (task : Nat) (call : Call) (place : Handles → CallPlace) (c : Client) :
    (c.collect task call place).outlook = c.outlook := by
  unfold collect
  split <;> rfl

theorem outlook_callStep? {strand : Strand} {turn : Turn} {call : Call} {place : CallPlace}
    (h : c.callStep? strand turn call place = some d) :
    d.outlook =
      if turn = .own ∧ call = .close ∧ place = .fresh then c.shutDown.outlook else c.outlook := by
  by_cases hfirst : turn = .own ∧ place = .fresh
  · obtain ⟨rfl, rfl⟩ := hfirst
    cases h
    rw [outlook_beginCall]
    simp
  · -- After its first step a call goes on by what calls share, or by its own place alone.
    rw [if_neg fun hclose => hfirst ⟨hclose.1, hclose.2.2⟩]
    unfold callStep? at h
    dsimp only at h
    split at h
    next => exact absurd ⟨rfl, rfl⟩ hfirst
    next =>
      obtain ⟨⟨e, next⟩, hstep, rfl⟩ := Option.map_eq_some_iff.mp h
      have he : e.outlook = c.outlook := outlook_of_wired (wired_connectStep? hstep)
      rcases next with place | result | _ <;> exact he
    next =>
      obtain ⟨⟨e, next⟩, hstep, rfl⟩ := Option.map_eq_some_iff.mp h
      have he : e.outlook = c.outlook := outlook_of_wired (wired_sendStep? hstep)
      rcases next with place | result | _ <;> exact he
    next =>
      obtain ⟨⟨e, next⟩, hstep, rfl⟩ := Option.map_eq_some_iff.mp h
      have he : e.outlook = c.outlook := outlook_of_wired (wired_sendStep? hstep)
      rcases next with place | (_ | ⟨⟩) | _ <;> exact he
    next => exact outlook_awaitStep? h
    next =>
      obtain ⟨⟨e, next⟩, hstep, rfl⟩ := Option.map_eq_some_iff.mp h
      have he : e.outlook = c.outlook := outlook_of_wired (wired_updateStep? hstep)
      rcases next with place | result | _ <;> exact he
    next => split at h <;> cases h <;> rfl
    next =>
      cases h
      have hclosed : c.closeLink.outlook = c.outlook := outlook_of_wired (wired_closeLink c)
      exact hclosed
    next => split at h <;> cases h <;> exact outlook_collect ..
    next =>
      split at h
      next => cases h; rfl
      next => cases h
    next handles deadline =>
      split at h
      next => cases h; rfl
      next =>
        split at h
        next => cases h; exact outlook_abort handles.refresh c
        next => cases h
    next handles deadline =>
      split at h
      next => cases h; rfl
      next =>
        split at h
        next => cases h; exact outlook_abort handles.receive c
        next => cases h
    next => cases h

/-! ## Actions -/

/-- The line that an action reads, if it reads one. -/
def lineRead? (action : ClientAction) (c : Client) : Option (List UInt8) :=
  match action with
  | .go strand turn =>
    match c.tasks[strand.task]? with
    | some (.receive place) => lineReadAt? turn place c.link
    | _ => none
  | _ => none

/-- Whether an action is the first step of a call that closes the client. -/
def beginsClose (action : ClientAction) (c : Client) : Bool :=
  match action with
  | .go strand .own => c.tasks[strand.task]? = some (.call .close .fresh)
  | _ => false

theorem outlook_of_go? {strand : Strand} {turn : Turn} (h : c.go? strand turn = some d) :
    d.outlook =
      if c.beginsClose (.go strand turn) then c.shutDown.outlook
      else (c.lineRead? (.go strand turn)).elim c.outlook c.outlook.takeIn := by
  unfold go? at h
  split at h
  next => cases h
  next was hwas =>
    split at h
    next =>
      have hclose : c.beginsClose (.go strand turn) = decide (turn = .own ∧ was = .call .close .fresh) := by
        cases turn <;> simp [beginsClose, hwas]
      rw [hclose]
      simp only [lineRead?, hwas, decide_eq_true_eq]
      split at h
      next place =>
        rw [if_neg (by simp)]
        exact outlook_receiveStep? h
      next =>
        rw [if_neg (by simp)]
        exact outlook_refreshStep? h
      next call place =>
        rw [outlook_callStep? h]
        simp
      next => cases h
    next => cases h

/-- A line that is read changes the outlook, and so does the first step of a call that closes the client;
nothing else does. -/
theorem outlook_of_perform? {action : ClientAction} (h : c.perform? action = some d) :
    d.outlook =
      if c.beginsClose action then c.shutDown.outlook
      else (c.lineRead? action).elim c.outlook c.outlook.takeIn := by
  cases action with
  | go strand turn => exact outlook_of_go? h
  | pass millis =>
    obtain ⟨-, hd⟩ := Option.ite_none_right_eq_some.mp h
    cases hd
    rfl
  | call | arrive | lose | setRefusals | setUnanswered | setWriteFaults =>
    cases h
    rfl

end Client

end AlarmPanel
