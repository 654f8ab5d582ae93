import AlarmPanel.Proofs.Backoff
import AlarmPanel.Proofs.Client.Outlook

/-!
# The chronicle of the client

What a client reckons with in time is on record: how long it pauses between dials, and when it has last heard of
the panel, follow from what it has done to the outside. `Client.chronicle` is the part of a client that this is
about, and `Chronicle.note` says how one effect changes it. Whatever happens to a client, the effects that it adds
are all that it changes of the chronicle but the time (`Client.chronicle_of_perform?`). So the backoff is that of
the dials, whoever made them (`Client.backoff_of_performAll?`).
-/

namespace AlarmPanel

/-! ## What effects tell -/

/-- How an attempt to bring the link up has ended, if an effect is the end of one. -/
def Effect.attempt? : Effect → Option Backoff.Attempt
  | .dialed .connected => some .succeeds
  | .dialed _ => some .fails
  | _ => none

/-- Whether an effect shows that the panel is there: the notice that the link has come up, or an event that is
received. -/
def Effect.hears : Effect → Bool
  | .notified .connected | .notified (.report (.received _)) => true
  | _ => false

/-- The part of a client that is reckoned with time. -/
structure Chronicle where
  now : Nat
  backoff : Backoff
  lastHeard : Option Nat
  /-- The latest entry first. -/
  log : List LogEntry

namespace Chronicle

/-- The chronicle after an effect. -/
def note (k : Chronicle) (effect : Effect) : Chronicle :=
  { now := k.now
    backoff := effect.attempt?.elim k.backoff k.backoff.afterAttempt
    lastHeard := if effect.hears then some k.now else k.lastHeard
    log := ⟨k.now, effect⟩ :: k.log }

/-- The chronicle after effects that come at the same time, the earliest first. -/
def notes (effects : List Effect) (k : Chronicle) : Chronicle := effects.foldl note k

theorem notes_append (first second : List Effect) (k : Chronicle) :
    k.notes (first ++ second) = (k.notes first).notes second := List.foldl_append

theorem now_notes (effects : List Effect) (k : Chronicle) : (k.notes effects).now = k.now := by
  induction effects generalizing k with
  | nil => rfl
  | cons effect effects ih => exact ih (k.note effect)

theorem log_notes (effects : List Effect) (k : Chronicle) :
    (k.notes effects).log = (effects.map (⟨k.now, ·⟩)).reverse ++ k.log := by
  induction effects generalizing k with
  | nil => rfl
  | cons effect effects ih =>
    rw [List.map_cons, List.reverse_cons, List.append_assoc]
    exact ih (k.note effect)

theorem backoff_notes (effects : List Effect) (k : Chronicle) :
    (k.notes effects).backoff = k.backoff.after (effects.filterMap Effect.attempt?) := by
  induction effects generalizing k with
  | nil => rfl
  | cons effect effects ih =>
    refine (ih (k.note effect)).trans ?_
    cases h : effect.attempt? with
    | none =>
      rw [List.filterMap_cons_none h, note, h]
      rfl
    | some attempt =>
      rw [List.filterMap_cons_some h, note, h]
      rfl

/-- The panel has been heard of in these effects, or not since before. -/
theorem lastHeard_notes (effects : List Effect) (k : Chronicle) :
    (k.notes effects).lastHeard = if effects.any Effect.hears then some k.now else k.lastHeard := by
  induction effects generalizing k with
  | nil => rfl
  | cons effect effects ih =>
    refine (ih (k.note effect)).trans ?_
    rw [List.any_cons, note]
    cases effect.hears <;> cases effects.any Effect.hears <;> rfl

/-- The chronicle `l` comes from `k` by effects. -/
def Leads (k l : Chronicle) : Prop := ∃ effects, l = k.notes effects

namespace Leads

variable {k l m : Chronicle}

theorem refl (k : Chronicle) : k.Leads k := ⟨[], rfl⟩

theorem trans (hkl : k.Leads l) (hlm : l.Leads m) : k.Leads m := by
  obtain ⟨first, rfl⟩ := hkl
  obtain ⟨second, rfl⟩ := hlm
  exact ⟨first ++ second, (notes_append first second k).symm⟩

theorem note (effect : Effect) (k : Chronicle) : k.Leads (k.note effect) := ⟨[effect], rfl⟩

end Leads

end Chronicle

namespace Client

variable {c d e : Client} {strand : Strand} {turn : Turn}

def chronicle (c : Client) : Chronicle := ⟨c.now, c.backoff, c.lastHeard, c.log⟩

/-! ## Connecting and sending -/

theorem leads_endDial (c : Client) : c.chronicle.Leads c.endDial.1.chronicle := by
  unfold endDial
  rcases c.link.dial with ⟨link, outcome⟩
  cases outcome with
  | connected => exact .note (.dialed .connected) _
  | refused => exact .note (.dialed .refused) _
  | unanswered => exact .note (.dialed .unanswered) _

theorem leads_connectStep? {place : ConnectPlace} {next : Client × Next ConnectPlace (Except Error Unit)}
    (h : c.connectStep? strand turn place = some next) : c.chronicle.Leads next.1.chronicle := by
  unfold connectStep? at h
  split at h
  next => cases h; exact .refl _
  next =>
    split at h
    next =>
      split at h
      next => cases h; exact .note .closedLink _
      next => cases h; exact .refl _
      next => cases h; exact .refl _
    next => cases h
  next =>
    have hdialing : c.chronicle.Leads (c.note (.dialing strand)).chronicle := .note (.dialing strand) _
    split at h
    next => cases h; exact .refl _
    next =>
      split at h
      next => cases h; exact .refl _
      next =>
        dsimp only at h
        split at h
        next => cases h; exact hdialing
        next => cases h; exact hdialing.trans (leads_endDial _)
  next => cases h; exact leads_endDial c
  next => cases h; exact .note (.notified .connected) _
  next =>
    split at h
    next => cases h; exact .refl _
    next => cases h
  next =>
    split at h
    next => cases h; exact .refl _
    next => cases h
  next => cases h

theorem leads_endWrite (strand : Strand) (line : String) (c : Client) :
    c.chronicle.Leads (c.endWrite strand line).1.chronicle := by
  unfold endWrite
  rcases c.link.write with ⟨link, written⟩
  cases written with
  | true => exact .note (.wrote strand line) _
  | false => exact .refl _

theorem leads_sendStep? {line : String} {place : SendPlace} {next : Client × Next SendPlace (Except Error Unit)}
    (h : c.sendStep? strand turn line place = some next) : c.chronicle.Leads next.1.chronicle := by
  unfold sendStep? at h
  split at h
  next place =>
    obtain ⟨⟨d, after⟩, hstep, rfl⟩ := Option.map_eq_some_iff.mp h
    have hd : c.chronicle.Leads d.chronicle := leads_connectStep? hstep
    rcases after with place | (_ | _) | _ <;> exact hd
  next => cases h; exact .refl _
  next =>
    split at h
    next =>
      split at h
      next => cases h; exact .refl _
      next => cases h; exact leads_endWrite strand line c
    next => cases h
  next => cases h; exact leads_endWrite strand line c
  next => cases h

theorem leads_updateStep? {branches : Branches} {next : Client × Next Branches (Except Error Unit)}
    (h : c.updateStep? strand turn branches = some next) : c.chronicle.Leads next.1.chronicle := by
  unfold updateStep? at h
  split at h
  next place =>
    obtain ⟨⟨d, after⟩, hstep, rfl⟩ := Option.map_eq_some_iff.mp h
    have hd : c.chronicle.Leads d.chronicle := leads_sendStep? hstep
    rcases after with place | (_ | _) | _ <;> exact hd
  next => cases h

/-! ## Receiving -/

/-- A report shows nothing new, unless it is of an event; and an event that is reported has been heard of. -/
theorem chronicle_announce {report : Report} (h : ∀ event, report = .received event → c.lastHeard = some c.now) :
    (c.announce report).chronicle = c.chronicle.notes (c.handlers.effects report) := by
  have hnotice {d : Client} (hheard : ∀ event, report = .received event → d.lastHeard = some d.now) :
      (d.notify (.report report)).chronicle = d.chronicle.note (.notified (.report report)) := by
    cases report with
    | received event => exact congrArg (Chronicle.mk d.now d.backoff · _) (hheard event rfl)
    | changed => rfl
  unfold announce Handlers.effects
  cases c.handlers.for? report with
  | none => exact hnotice h
  | some ending => exact hnotice (d := c.note (.called report ending)) h

theorem leads_foldl_announce (changes : List Change) (c : Client) :
    c.chronicle.Leads (changes.foldl (fun d change => d.announce (.changed change)) c).chronicle := by
  induction changes generalizing c with
  | nil => exact .refl _
  | cons change changes ih =>
    have hchange : c.chronicle.Leads (c.announce (.changed change)).chronicle :=
      ⟨_, chronicle_announce fun _ hreport => nomatch hreport⟩
    exact hchange.trans (ih _)

theorem leads_receive (event : Event) (c : Client) : c.chronicle.Leads (c.receive event).chronicle := by
  obtain ⟨slots, openSlots, hanswer⟩ := exists_answer event c
  let heard : Client := { c with lastHeard := some c.now, slots, openSlots }
  have hreported : (heard.announce (.received event)).chronicle =
      c.chronicle.notes (c.handlers.effects (.received event)) := by
    rw [chronicle_announce fun _ _ => rfl]
    show heard.chronicle.notes (c.handlers.effects (.received event)) = _
    unfold Handlers.effects
    cases c.handlers.for? (.received event) <;> rfl
  rw [receive_eq, hanswer]
  exact Chronicle.Leads.trans ⟨_, hreported⟩ (leads_foldl_announce _ _)

theorem leads_receiveLine (bytes : List UInt8) (c : Client) : c.chronicle.Leads (c.receiveLine bytes).chronicle := by
  unfold receiveLine
  cases eventOfBytes? bytes with
  | none => exact .refl _
  | some event => exact leads_receive event c

theorem leads_loseLink (task : Nat) (c : Client) : c.chronicle.Leads (c.loseLink task).chronicle := by
  unfold loseLink
  split
  next => exact .refl _
  next => exact .note (.notified .disconnected) _

theorem leads_beginRead (task : Nat) (c : Client) : c.chronicle.Leads (c.beginRead task).chronicle := by
  unfold beginRead
  split
  next => exact .refl _
  next => exact leads_loseLink task c

theorem leads_receiveStep? {place : ReceivePlace} (h : c.receiveStep? strand turn place = some d) :
    c.chronicle.Leads d.chronicle := by
  unfold receiveStep? at h
  dsimp only at h
  split at h
  next => split at h <;> cases h <;> exact .refl _
  next =>
    obtain ⟨⟨e, next⟩, hstep, rfl⟩ := Option.map_eq_some_iff.mp h
    have he : c.chronicle.Leads e.chronicle := leads_connectStep? hstep
    rcases next with place | (_ | ⟨⟩) | _
    · exact he
    · exact he
    · exact he.trans (leads_beginRead strand.task e)
    · exact he
  next number =>
    obtain ⟨⟨link, outcome⟩, -, rfl⟩ := Option.map_eq_some_iff.mp h
    cases outcome with
    | line bytes => exact (leads_receiveLine bytes { c with link }).trans (leads_beginRead strand.task _)
    | gone => exact leads_loseLink strand.task { c with link }
  next => cases h

/-! ## Refreshing and calls -/

theorem leads_refreshStep? {place : RefreshPlace} (h : c.refreshStep? strand turn place = some d) :
    c.chronicle.Leads d.chronicle := by
  unfold refreshStep? at h
  dsimp only at h
  split at h
  next => cases h; exact .refl _
  next =>
    split at h
    next => split at h <;> cases h <;> exact .refl _
    next => cases h
  next =>
    split at h
    next => cases h; exact .refl _
    next => cases h
  next =>
    split at h
    next =>
      split at h
      next => cases h; exact .refl _
      next => cases h
    next =>
      obtain ⟨⟨e, next⟩, hstep, rfl⟩ := Option.map_eq_some_iff.mp h
      have he : c.chronicle.Leads e.chronicle := leads_updateStep? hstep
      rcases next with rest | result | _ <;> exact he
  next => cases h

theorem chronicle_beginSend (task : Nat) (call : Call) (command : Except Error String) (c : Client) :
    (c.beginSend task call command).chronicle = c.chronicle := by
  unfold beginSend
  split <;> rfl

theorem chronicle_beginAsk (task : Nat) (call : Call) (command : String) (patience : Duration) (c : Client) :
    (c.beginAsk task call command patience).chronicle = c.chronicle := by
  have hshare (code : UInt8) : (c.shareSlot code).1.chronicle = c.chronicle := by
    unfold shareSlot
    dsimp only
    split
    next => split <;> rfl
    next => rfl
  unfold beginAsk
  split
  next => rfl
  next code _ =>
    dsimp only
    split <;> exact hshare code

theorem chronicle_beginCall (task : Nat) (call : Call) (c : Client) :
    (c.beginCall task call).chronicle = c.chronicle := by
  cases call with
  | start | keepalive =>
    simp only [beginCall]
    split <;> rfl
  | panelInfo =>
    simp only [beginCall]
    split
    next => rfl
    next => exact chronicle_beginAsk ..
  | ask | refreshAuxOutputs => exact chronicle_beginAsk ..
  | send | armAway | armHome | disarm | panic | setAuxOutput => exact chronicle_beginSend ..
  | connect | close | update | zone => rfl

theorem chronicle_awaitStep? {task : Nat} {call : Call} {slot : Nat} {command : String} {deadline : Nat}
    (h : c.awaitStep? task call slot command deadline = some d) : d.chronicle = c.chronicle := by
  unfold awaitStep? at h
  split at h
  next => cases h; rfl
  next =>
    split at h
    next => cases h; rfl
    next =>
      split at h
      next => cases h; rfl
      next => cases h

theorem chronicle_collect (task : Nat) (call : Call) (place : Handles → CallPlace) (c : Client) :
    (c.collect task call place).chronicle = c.chronicle := by
  unfold collect
  split <;> rfl

theorem chronicle_abort (task : Nat) (c : Client) : (c.abort task).chronicle = c.chronicle := by
  unfold abort
  split
  next => split <;> rfl
  next => rfl

/-- A step that leaves the chronicle as it is. -/
theorem leads_of_eq (h : d.chronicle = c.chronicle) : c.chronicle.Leads d.chronicle := h ▸ .refl _

theorem leads_callStep? {call : Call} {place : CallPlace} (h : c.callStep? strand turn call place = some d) :
    c.chronicle.Leads d.chronicle := by
  unfold callStep? at h
  dsimp only at h
  split at h
  next => cases h; exact leads_of_eq (chronicle_beginCall ..)
  next =>
    obtain ⟨⟨e, next⟩, hstep, rfl⟩ := Option.map_eq_some_iff.mp h
    have he : c.chronicle.Leads e.chronicle := leads_connectStep? hstep
    rcases next with place | result | _ <;> exact he
  next =>
    obtain ⟨⟨e, next⟩, hstep, rfl⟩ := Option.map_eq_some_iff.mp h
    have he : c.chronicle.Leads e.chronicle := leads_sendStep? hstep
    rcases next with place | result | _ <;> exact he
  next =>
    obtain ⟨⟨e, next⟩, hstep, rfl⟩ := Option.map_eq_some_iff.mp h
    have he : c.chronicle.Leads e.chronicle := leads_sendStep? hstep
    rcases next with place | (_ | ⟨⟩) | _ <;> exact he
  next => exact leads_of_eq (chronicle_awaitStep? h)
  next =>
    obtain ⟨⟨e, next⟩, hstep, rfl⟩ := Option.map_eq_some_iff.mp h
    have he : c.chronicle.Leads e.chronicle := leads_updateStep? hstep
    rcases next with rest | result | _ <;> exact he
  next => split at h <;> cases h <;> exact .refl _
  next => cases h; exact .note .closedLink _
  next => split at h <;> cases h <;> exact leads_of_eq (chronicle_collect ..)
  next =>
    split at h
    next => cases h; exact .refl _
    next => cases h
  next handles deadline =>
    split at h
    next => cases h; exact .refl _
    next =>
      split at h
      next => cases h; exact leads_of_eq (chronicle_abort handles.refresh c)
      next => cases h
  next handles deadline =>
    split at h
    next => cases h; exact .refl _
    next =>
      split at h
      next => cases h; exact leads_of_eq (chronicle_abort handles.receive c)
      next => cases h
  next => cases h

/-! ## Actions -/

variable {action : ClientAction} {more : List Effect}

theorem leads_go? (h : c.go? strand turn = some d) : c.chronicle.Leads d.chronicle := by
  unfold go? at h
  split at h
  next => cases h
  next =>
    split at h
    next =>
      split at h
      next => exact leads_receiveStep? h
      next => exact leads_refreshStep? h
      next => exact leads_callStep? h
      next => cases h
    next => cases h

theorem effects_of_log (hlog : d.log = (more.map (⟨c.now, ·⟩)).reverse ++ c.log) : d.effects = c.effects ++ more := by
  rw [effects, hlog, List.map_append, List.map_reverse, List.map_map, List.reverse_append, List.reverse_reverse]
  exact congrArg (c.effects ++ ·) (List.map_id more)

/-- The effects of an action are all that it changes of the chronicle, unless it lets time pass. -/
theorem chronicle_perform?_cases (h : c.perform? action = some d) :
    (∃ more, d.effects = c.effects ++ more ∧ d.chronicle = c.chronicle.notes more) ∨
      ∃ millis, action = .pass millis ∧ d.chronicle = { c.chronicle with now := c.now + millis } := by
  cases action with
  | go strand turn =>
    obtain ⟨more, hd⟩ := leads_go? h
    have hlog := (congrArg Chronicle.log hd).trans (Chronicle.log_notes more c.chronicle)
    exact .inl ⟨more, effects_of_log hlog, hd⟩
  | pass millis =>
    obtain ⟨-, hd⟩ := Option.ite_none_right_eq_some.mp h
    cases hd
    exact .inr ⟨millis, rfl, rfl⟩
  | call | arrive | lose | setRefusals | setUnanswered | setWriteFaults =>
    cases h
    exact .inl ⟨[], (List.append_nil _).symm, rfl⟩

/-- What an action adds to the effects is all that it changes of the chronicle but the time. -/
theorem chronicle_of_perform? (h : c.perform? action = some d) (hmore : d.effects = c.effects ++ more) :
    d.chronicle = { c.chronicle.notes more with now := d.now } := by
  rcases chronicle_perform?_cases h with ⟨effects, heffects, hd⟩ | ⟨millis, -, hd⟩
  · rw [← List.append_cancel_left (heffects.symm.trans hmore), ← hd]
    rfl
  · have hnone : more = [] := by
      have hlog : d.log = c.log := congrArg Chronicle.log hd
      rw [effects, hlog] at hmore
      exact List.append_right_eq_self.mp hmore.symm
    rw [hnone, hd]
    exact congrArg (Chronicle.mk · c.backoff c.lastHeard c.log) (congrArg Chronicle.now hd).symm

/-- The entries that an action adds to the log bear the time at which it comes. -/
theorem log_of_perform? (h : c.perform? action = some d) (hmore : d.effects = c.effects ++ more) :
    d.log = (more.map (⟨c.now, ·⟩)).reverse ++ c.log :=
  (congrArg Chronicle.log (chronicle_of_perform? h hmore)).trans (Chronicle.log_notes more c.chronicle)

theorem lastHeard_of_perform? (h : c.perform? action = some d) (hmore : d.effects = c.effects ++ more) :
    d.lastHeard = if more.any Effect.hears then some c.now else c.lastHeard :=
  (congrArg Chronicle.lastHeard (chronicle_of_perform? h hmore)).trans (Chronicle.lastHeard_notes more c.chronicle)

/-! ## Time -/

/-- Time stands still in every action but the one that lets it pass. -/
theorem now_perform?_cases (h : c.perform? action = some d) :
    d.now = c.now ∨ ∃ millis, action = .pass millis ∧ d.now = c.now + millis := by
  rcases chronicle_perform?_cases h with ⟨more, -, hd⟩ | ⟨millis, haction, hd⟩
  · exact .inl ((congrArg Chronicle.now hd).trans (Chronicle.now_notes more c.chronicle))
  · exact .inr ⟨millis, haction, congrArg Chronicle.now hd⟩

theorem now_go? (h : c.go? strand turn = some d) : d.now = c.now := by
  obtain ⟨more, hd⟩ := leads_go? h
  exact (congrArg Chronicle.now hd).trans (Chronicle.now_notes more c.chronicle)

theorem now_le_of_perform? (h : c.perform? action = some d) : c.now ≤ d.now := by
  rcases now_perform?_cases h with hsame | ⟨millis, -, hnow⟩
  · exact Nat.le_of_eq hsame.symm
  · rw [hnow]
    exact Nat.le_add_right _ _

/-- How the dials have ended, the earliest first. -/
def attempts (c : Client) : List Backoff.Attempt := c.effects.filterMap Effect.attempt?

/-- How many dials have failed since the last one that connected. -/
def failuresInRow (c : Client) : Nat := Backoff.failuresInRow c.attempts

theorem attempts_append (hmore : d.effects = c.effects ++ more) :
    d.attempts = c.attempts ++ more.filterMap Effect.attempt? := by
  rw [attempts, hmore, List.filterMap_append]
  rfl

theorem exists_effects_of_perform? (h : c.perform? action = some d) : ∃ more, d.effects = c.effects ++ more := by
  rcases chronicle_perform?_cases h with ⟨more, hmore, -⟩ | ⟨millis, -, hd⟩
  · exact ⟨more, hmore⟩
  · have hlog : d.log = c.log := congrArg Chronicle.log hd
    exact ⟨[], by rw [effects, hlog, List.append_nil, effects]⟩

/-- A backoff that fits the dials fits them after every action. -/
theorem backoff_perform? {b : Backoff} (h : c.perform? action = some d) (hc : c.backoff = b.after c.attempts) :
    d.backoff = b.after d.attempts := by
  obtain ⟨more, hmore⟩ := exists_effects_of_perform? h
  have hd : d.backoff = c.backoff.after (more.filterMap Effect.attempt?) :=
    (congrArg Chronicle.backoff (chronicle_of_perform? h hmore)).trans (Chronicle.backoff_notes more c.chronicle)
  rw [hd, hc, attempts_append hmore, Backoff.after, Backoff.after, Backoff.after, List.foldl_append]

/-- The backoff is a matter of how many dials have failed since the last one that connected, whoever made them. -/
theorem backoff_of_performAll? {settings : ClientSettings} {handlers : Handlers} {link : Link}
    {history : List ClientAction} (h : (new settings handlers link).performAll? history = some c) :
    c.backoff = settings.backoff.failed c.failuresInRow := by
  have hafter : c.backoff = settings.backoff.after c.attempts :=
    performAll?_induction (P := fun d => d.backoff = settings.backoff.after d.attempts)
      (fun _ _ _ hd hstep => backoff_perform? hstep hd) h rfl
  rw [hafter]
  exact Backoff.after_eq_failed rfl c.attempts

end Client

end AlarmPanel
