import AlarmPanel.Proofs.Client.Moves
import AlarmPanel.Proofs.Client.Table

/-!
# Requests and their answers

A status request registers with its first step, then sends its line and waits for the answer until its time
is up. However the steps of other calls, received lines, lost links and passing time come in between, it gets
the first answer that the client takes in after that step, if there is one before its time is up and its own
send succeeds; else it ends with a timeout or with the error of its send. Only where the limit to the panel's
silence is no duration may its send break off, and then it never returns.
-/

namespace AlarmPanel

namespace Client

/-! ## What a request asks -/

/-- The status request that a call makes and its patience, if it makes one. -/
def asks? (call : Call) (c : Client) : Option (String × Duration) :=
  match call with
  | .ask command patience => some (command, patience)
  | .panelInfo =>
    if c.alarm.panel.isNone then some (RequestId.command .panelVersion, c.settings.requestTimeout)
    else none
  | .refreshAuxOutputs => some (RequestId.command .auxOutputs, c.settings.requestTimeout)
  | _ => none

theorem beginCall_of_asks? {call : Call} {command : String} {patience : Duration} {c : Client}
    (h : c.asks? call = some (command, patience)) (task : Nat) :
    c.beginCall task call = c.beginAsk task call command patience := by
  cases call with
  | ask command patience => cases h; rfl
  | refreshAuxOutputs => cases h; rfl
  | panelInfo =>
    simp only [asks?] at h
    split at h
    next hnone =>
      cases h
      rw [Option.isNone_iff_eq_none] at hnone
      simp only [beginCall, hnone]
    next => cases h
  | start | keepalive | connect | close | send | armAway | armHome | disarm | panic | setAuxOutput |
    update | zone => cases h

end Client

/-- A status request that has registered. -/
structure Inquiry where
  task : Nat
  call : Call
  command : String
  patience : Duration
  code : UInt8
  /-- How many status updates had been taken in when it registered. -/
  seen : Nat

namespace Inquiry

/-- The call takes its first step from the client `c` to `d`, and registers the request. -/
structure Registers (q : Inquiry) (c d : Client) : Prop where
  fresh : c.tasks[q.task]? = some (.call q.call .fresh)
  asks : c.asks? q.call = some (q.command, q.patience)
  code : statusCode q.command = .ok q.code
  seen : q.seen = c.updates.length
  step : c.perform? (.go ⟨q.task, 0⟩ .own) = some d

/-- The first answer to the request that the client has taken in since it registered. -/
def answer? (q : Inquiry) (c : Client) : Option StatusUpdate := c.answerSince? q.code q.seen

/-- The call is sending its line. -/
def Sends (q : Inquiry) (slot : Nat) (line : String) (place : SendPlace) (c : Client) : Prop :=
  c.tasks[q.task]? = some (.call q.call (.requesting slot q.command q.patience line place))

/-- The call has sent its line and waits for the answer. -/
def Waits (q : Inquiry) (slot deadline : Nat) (c : Client) : Prop :=
  c.tasks[q.task]? = some (.call q.call (.awaiting slot q.command deadline))

/-- The call is over. -/
def HasEnded (q : Inquiry) (ending : Ending) (c : Client) : Prop :=
  c.tasks[q.task]? = some (.over (.call q.call) ending)

/-- How a step of its own can end the call. -/
inductive Ends (q : Inquiry) (turn : Turn) (c : Client) : Ending → Prop
  /-- It gets the first answer since it registered. -/
  | answered {slot deadline : Nat} {update : StatusUpdate} (hwaits : q.Waits slot deadline c)
      (hanswer : q.answer? c = some update) : Ends q turn c (.answered (Client.answerOf q.call update))
  /-- Its time is up and there has been no answer. -/
  | timedOut {slot deadline : Nat} (hwaits : q.Waits slot deadline c) (hnone : q.answer? c = none)
      (hdeadline : deadline ≤ c.now) : Ends q turn c (.answered (.failed (.commandTimeout q.command)))
  /-- Its own send fails. -/
  | sendFailed {slot : Nat} {line : String} {place : SendPlace} {d : Client} {e : Error}
      (hsends : q.Sends slot line place c)
      (hfails : c.sendStep? ⟨q.task, 0⟩ turn line place = some (d, .result (.error e))) :
      Ends q turn c (.answered (.failed e))
  /-- Its own send breaks off, because the limit to the panel's silence is no duration, and the call never returns. -/
  | sendDied {slot : Nat} {line : String} {place : SendPlace} {d : Client}
      (hsends : q.Sends slot line place c) (hlimit : c.settings.staleAfter? = none)
      (hdies : c.sendStep? ⟨q.task, 0⟩ turn line place = some (d, .dies)) : Ends q turn c .died

/-- In the course of the history from `c` the call's own send has succeeded, and its time runs from then to
the deadline. -/
def SentIn (q : Inquiry) (actions : List ClientAction) (c : Client) (deadline : Nat) : Prop :=
  ∃ before turn after slot line place d e, actions = before ++ .go ⟨q.task, 0⟩ turn :: after ∧
    c.performAll? before = some d ∧ q.Sends slot line place d ∧
    d.sendStep? ⟨q.task, 0⟩ turn line place = some (e, .result (.ok ())) ∧
    deadline = e.deadline q.patience

/-- In the course of the history from `c` a step of its own has ended the call. -/
def EndedIn (q : Inquiry) (actions : List ClientAction) (c : Client) (ending : Ending) : Prop :=
  ∃ before turn after d, actions = before ++ .go ⟨q.task, 0⟩ turn :: after ∧
    c.performAll? before = some d ∧ q.Ends turn d ending

/-- How the request stands in the client `d` after a history from the client `c` in which it has just
registered. -/
inductive Standing (q : Inquiry) (actions : List ClientAction) (c d : Client) : Prop
  /-- The call is still sending; if that succeeds, it waits. -/
  | sending {slot : Nat} {line : String} {place : SendPlace} (hsends : q.Sends slot line place d)
      (hsent : ∀ turn e, d.sendStep? ⟨q.task, 0⟩ turn line place = some (e, .result (.ok ())) →
        ∃ f, d.perform? (.go ⟨q.task, 0⟩ turn) = some f ∧ q.Waits slot (e.deadline q.patience) f)
  /-- The call waits and there has been no answer: it can only wait on, until its time is up. -/
  | unanswered {slot deadline : Nat} (hwaits : q.Waits slot deadline d)
      (hsent : q.SentIn actions c deadline) (hnone : q.answer? d = none)
      (hearly : d.now < deadline → ∀ turn, d.perform? (.go ⟨q.task, 0⟩ turn) = none)
      (hlate : deadline ≤ d.now → ∃ e, d.perform? (.go ⟨q.task, 0⟩ .own) = some e ∧
        q.HasEnded (.answered (.failed (.commandTimeout q.command))) e)
  /-- The call waits and there has been an answer: its next step returns the first one, and no time
  passes before. -/
  | answered {slot deadline : Nat} {update : StatusUpdate} (hwaits : q.Waits slot deadline d)
      (hsent : q.SentIn actions c deadline) (hanswer : q.answer? d = some update)
      (hnext : ∃ e, d.perform? (.go ⟨q.task, 0⟩ .own) = some e ∧
        q.HasEnded (.answered (Client.answerOf q.call update)) e)
      (hfirst : ∀ millis, d.perform? (.pass millis) = none)
  /-- A step of its own has ended the call. -/
  | ended {ending : Ending} (hended : q.HasEnded ending d) (hends : q.EndedIn actions c ending)

/-! ## The invariant of a request -/

/-- The request has this slot for its answer, and the call is sending or waits. -/
structure InProgress (q : Inquiry) (slot : Nat) (c : Client) : Prop where
  sound : c.Sound
  seen : q.seen ≤ c.updates.length
  awaits : c.Awaits q.code q.seen slot
  place : (∃ line place, q.Sends slot line place c) ∨ ∃ deadline, q.Waits slot deadline c

variable {q : Inquiry} {c d : Client}

/-- A request that registers is in progress. -/
theorem Registers.inProgress (h : q.Registers c d) (hsound : c.Sound) :
    q.InProgress (c.shareSlot q.code).2 d ∧
      q.Sends (c.shareSlot q.code).2 (requestLine q.command) (.connecting .asking) d := by
  have hstep : c.callStep? ⟨q.task, 0⟩ .own q.call .fresh = some d :=
    (Client.go?_call h.step h.fresh rfl).2
  have hbegin : d = (c.shareSlot q.code).1.setTask q.task
      (.call q.call (.requesting (c.shareSlot q.code).2 q.command q.patience (requestLine q.command)
        (.connecting .asking))) := by
    rw [← Client.beginAsk_of_statusCode q.task q.patience c h.code,
      ← Client.beginCall_of_asks? h.asks q.task]
    exact (Option.some.inj hstep).symm
  have hupdates : d.updates = c.updates := by
    rw [hbegin]
    exact Client.updates_shareSlot q.code c
  have hplace : q.Sends (c.shareSlot q.code).2 (requestLine q.command) (.connecting .asking) d := by
    have hfresh : (c.shareSlot q.code).1.tasks[q.task]? = some (.call q.call .fresh) := by
      rw [Client.tasks_shareSlot]
      exact h.fresh
    rw [hbegin]
    exact Client.tasks_setTask_self rfl hfresh _
  refine ⟨⟨hsound.perform? h.step, Nat.le_of_eq (by rw [h.seen, hupdates]), ?_, .inl ⟨_, _, hplace⟩⟩,
    hplace⟩
  have hawaits := Client.awaits_shareSlot hsound.table q.code
  rw [← h.seen] at hawaits
  rw [hbegin]
  exact hawaits

/-- How a step shows on a request that is in progress with a slot. -/
inductive Move (q : Inquiry) (slot : Nat) (action : ClientAction) (c d : Client) : Prop
  /-- The call stays where it is. -/
  | stays (hplace : d.tasks[q.task]? = c.tasks[q.task]?)
  /-- It goes on sending. -/
  | sends {line : String} {place : SendPlace} (hsends : q.Sends slot line place d)
  /-- It has sent its line and begins to wait. -/
  | sent {turn : Turn} {line : String} {place : SendPlace} {e : Client}
      (haction : action = .go ⟨q.task, 0⟩ turn) (hsends : q.Sends slot line place c)
      (hsend : c.sendStep? ⟨q.task, 0⟩ turn line place = some (e, .result (.ok ())))
      (hwaits : q.Waits slot (e.deadline q.patience) d)
  /-- It ends. -/
  | ends {turn : Turn} {ending : Ending} (haction : action = .go ⟨q.task, 0⟩ turn)
      (hends : q.Ends turn c ending) (hended : q.HasEnded ending d)

/-- The step of a call that is sending. -/
theorem Sends.move {turn : Turn} {slot : Nat} {line : String} {place : SendPlace}
    (hsends : q.Sends slot line place c) (hstep : c.go? ⟨q.task, 0⟩ turn = some d) :
    q.Move slot (.go ⟨q.task, 0⟩ turn) c d := by
  have hcall := (Client.go?_call hstep hsends rfl).2
  simp only [Client.callStep?] at hcall
  obtain ⟨⟨e, next⟩, hsend, hd⟩ := Option.map_eq_some_iff.mp hcall
  have he : e.ledger = c.ledger := Client.ledger_sendStep? hsend
  subst hd
  rcases next with place | (_ | ⟨⟩) | _
  · exact .sends (Client.tasks_setTask_self he hsends _)
  · exact .ends rfl (.sendFailed hsends hsend) (Client.tasks_setTask_self he hsends _)
  · exact .sent rfl hsends hsend (Client.tasks_setTask_self he hsends _)
  · obtain ⟨more, hmove, -⟩ := Client.sendMove_of_sendStep? hsend
    exact .ends rfl (.sendDied hsends hmove.limit hsend) (Client.tasks_setTask_self he hsends _)

/-- What a call that waits can do depends on the answer and on the time only. -/
theorem Waits.perform?_own {slot deadline : Nat} (hwaits : q.Waits slot deadline c)
    (hawaits : c.Awaits q.code q.seen slot) (hsound : c.TableSound) :
    c.perform? (.go ⟨q.task, 0⟩ .own)
      = match q.answer? c with
        | some update => some (c.answerCall q.task q.call (Client.answerOf q.call update))
        | none =>
          if deadline ≤ c.now then
            some (c.answerCall q.task q.call (.failed (.commandTimeout q.command)))
          else none := by
  show c.go? ⟨q.task, 0⟩ .own = _
  rw [Client.go?_of_callStep? hwaits rfl]
  exact Client.awaitStep?_of_awaits hawaits hsound

theorem Waits.hasEnded_answerCall {slot deadline : Nat} (hwaits : q.Waits slot deadline c)
    (answer : Answer) : q.HasEnded (.answered answer) (c.answerCall q.task q.call answer) :=
  Client.tasks_setTask_self rfl hwaits _

/-- The step of a call that waits ends it. -/
theorem Waits.move {turn : Turn} {slot deadline : Nat} (hwaits : q.Waits slot deadline c)
    (hawaits : c.Awaits q.code q.seen slot) (hsound : c.TableSound)
    (hstep : c.go? ⟨q.task, 0⟩ turn = some d) : q.Move slot (.go ⟨q.task, 0⟩ turn) c d := by
  have hcall := (Client.go?_call hstep hwaits rfl).2
  cases turn with
  | link => cases hcall
  | signal => cases hcall
  | own =>
    have hown := hwaits.perform?_own hawaits hsound
    rw [Client.perform?, hstep] at hown
    cases hanswer : q.answer? c with
    | some update =>
      rw [hanswer] at hown
      obtain rfl := Option.some.inj hown
      exact .ends rfl (.answered hwaits hanswer) (hwaits.hasEnded_answerCall _)
    | none =>
      rw [hanswer] at hown
      dsimp only at hown
      split at hown
      next hdeadline =>
        obtain rfl := Option.some.inj hown
        exact .ends rfl (.timedOut hwaits hanswer hdeadline) (hwaits.hasEnded_answerCall _)
      next => cases hown

/-- Whatever happens, a request in progress makes one of its moves. -/
theorem InProgress.move {slot : Nat} {action : ClientAction} (h : q.InProgress slot c)
    (hstep : c.perform? action = some d) : q.Move slot action c d := by
  rcases action.own_or_other q.task with ⟨⟨task, branch⟩, turn, rfl, rfl⟩ | hothers
  · have hgo : c.go? ⟨q.task, branch⟩ turn = some d := hstep
    rcases h.place with ⟨line, place, hsends⟩ | ⟨deadline, hwaits⟩
    · obtain rfl : branch = 0 := congrArg Strand.branch (Client.go?_call hgo hsends rfl).1
      exact hsends.move hgo
    · obtain rfl : branch = 0 := congrArg Strand.branch (Client.go?_call hgo hwaits rfl).1
      exact hwaits.move h.awaits h.sound.table hgo
  · -- Nobody else moves the call.
    rcases h.place with ⟨line, place, hsends⟩ | ⟨deadline, hwaits⟩
    · exact .stays ((Client.calls_perform? hstep h.sound.handles hsends rfl hothers).trans hsends.symm)
    · exact .stays ((Client.calls_perform? hstep h.sound.handles hwaits rfl hothers).trans hwaits.symm)

/-- A request stays in progress until it ends. -/
theorem InProgress.step {slot : Nat} {action : ClientAction} (h : q.InProgress slot c)
    (hstep : c.perform? action = some d) :
    q.InProgress slot d ∨
      ∃ turn ending, action = .go ⟨q.task, 0⟩ turn ∧ q.Ends turn c ending ∧ q.HasEnded ending d := by
  have htable := Client.tableStep_perform? hstep
  have hseen : q.seen ≤ d.updates.length := Nat.le_trans h.seen htable.updates_prefix.length_le
  have hgoes (hplace : (∃ line place, q.Sends slot line place d) ∨ ∃ deadline, q.Waits slot deadline d) :
      q.InProgress slot d :=
    ⟨h.sound.perform? hstep, hseen, htable.awaits h.sound.table h.seen h.awaits, hplace⟩
  cases h.move hstep with
  | stays hplace =>
    refine .inl (hgoes ?_)
    simp only [Sends, Waits, hplace]
    exact h.place
  | sends hsends => exact .inl (hgoes (.inl ⟨_, _, hsends⟩))
  | sent _ _ _ hwaits => exact .inl (hgoes (.inr ⟨_, hwaits⟩))
  | ends haction hends hended => exact .inr ⟨_, _, haction, hends, hended⟩

/-- A call that has ended keeps its ending. -/
theorem HasEnded.performAll? {ending : Ending} {actions : List ClientAction} (h : q.HasEnded ending c)
    (hsound : c.Sound) (hrun : c.performAll? actions = some d) : q.HasEnded ending d := by
  have hboth : d.Sound ∧ q.HasEnded ending d := by
    refine Client.performAll?_induction (P := fun c => c.Sound ∧ q.HasEnded ending c) ?_ hrun ⟨hsound, h⟩
    rintro action c d ⟨hsound, hended⟩ hstep
    exact ⟨hsound.perform? hstep, Client.over_perform? hstep hsound.handles hended⟩
  exact hboth.2

/-- After any history a request is in progress, or it has ended with a step of its own. -/
theorem InProgress.run {slot : Nat} {actions : List ClientAction} (h : q.InProgress slot c)
    (hrun : c.performAll? actions = some d) :
    q.InProgress slot d ∨ ∃ ending, q.HasEnded ending d ∧ q.EndedIn actions c ending := by
  induction actions generalizing c with
  | nil =>
    cases hrun
    exact .inl h
  | cons action actions ih =>
    obtain ⟨e, hstep, hrest⟩ := Option.bind_eq_some_iff.mp hrun
    rcases h.step hstep with hprogress | ⟨turn, ending, rfl, hends, hended⟩
    · rcases ih hprogress hrest with
        hprogress | ⟨ending, hended, before, turn, after, f, rfl, hbefore, hends⟩
      · exact .inl hprogress
      · refine .inr ⟨ending, hended, action :: before, turn, after, f, rfl, ?_, hends⟩
        exact Option.bind_eq_some_iff.mpr ⟨e, hstep, hbefore⟩
    · have hd := hended.performAll? (h.sound.perform? hstep) hrest
      exact .inr ⟨ending, hd, [], turn, actions, c, rfl, rfl, hends⟩

/-- A call that waits has waited from the start, or it has sent its line since. -/
theorem InProgress.sentIn {slot deadline : Nat} {actions : List ClientAction} (h : q.InProgress slot c)
    (hrun : c.performAll? actions = some d) (hwaits : q.Waits slot deadline d) :
    q.Waits slot deadline c ∨ q.SentIn actions c deadline := by
  induction actions generalizing c with
  | nil =>
    cases hrun
    exact .inl hwaits
  | cons action actions ih =>
    obtain ⟨e, hstep, hrest⟩ := Option.bind_eq_some_iff.mp hrun
    have hsound := h.sound.perform? hstep
    -- An ending would last, but in the end the call waits.
    have hended {ending : Ending} (h : q.HasEnded ending e) : False := by
      have hd := h.performAll? hsound hrest
      rw [HasEnded, hwaits] at hd
      cases hd
    rcases h.step hstep with hprogress | ⟨turn, ending, -, -, hend⟩
    · rcases ih hprogress hrest with
        hwaits | ⟨before, turn, after, slot, line, place, f, g, rfl, hbefore, hsend⟩
      · cases h.move hstep with
        | stays hplace =>
          refine .inl ?_
          rwa [Waits, ← hplace]
        | sends hsends =>
          rw [Waits, hsends] at hwaits
          cases hwaits
        | @sent turn line place f haction hsends hsend hwaits' =>
          rw [Waits, hwaits'] at hwaits
          cases hwaits
          exact .inr ⟨[], turn, actions, slot, line, place, c, f, by rw [haction]; rfl, rfl, hsends,
            hsend, rfl⟩
        | ends _ _ hend => exact (hended hend).elim
      · refine .inr ⟨action :: before, turn, after, slot, line, place, f, g, rfl, ?_, hsend⟩
        exact Option.bind_eq_some_iff.mpr ⟨e, hstep, hbefore⟩
    · exact (hended hend).elim

/-! ## How a request stands -/

/-- A call whose send succeeds begins to wait. -/
theorem Sends.perform?_of_sent {slot : Nat} {line : String} {place : SendPlace} {turn : Turn} {e : Client}
    (hsends : q.Sends slot line place c)
    (hsend : c.sendStep? ⟨q.task, 0⟩ turn line place = some (e, .result (.ok ()))) :
    ∃ f, c.perform? (.go ⟨q.task, 0⟩ turn) = some f ∧ q.Waits slot (e.deadline q.patience) f := by
  have he : e.ledger = c.ledger := Client.ledger_sendStep? hsend
  refine ⟨_, ?_, Client.tasks_setTask_self he hsends _⟩
  show c.go? ⟨q.task, 0⟩ turn = _
  rw [Client.go?_of_callStep? hsends rfl]
  simp only [Client.callStep?, hsend, Option.map_some]

theorem InProgress.standing {slot : Nat} {actions : List ClientAction} (h : q.InProgress slot d)
    (hsent : ∀ deadline, q.Waits slot deadline d → q.SentIn actions c deadline) :
    q.Standing actions c d := by
  rcases h.place with ⟨line, place, hsends⟩ | ⟨deadline, hwaits⟩
  · exact .sending hsends fun turn e hsend => hsends.perform?_of_sent hsend
  · have hown := hwaits.perform?_own h.awaits h.sound.table
    cases hanswer : q.answer? d with
    | some update =>
      rw [hanswer] at hown
      exact .answered hwaits (hsent deadline hwaits) hanswer ⟨_, hown, hwaits.hasEnded_answerCall _⟩
        (Client.perform?_pass_of_go? (by decide) hown)
    | none =>
      rw [hanswer] at hown
      dsimp only at hown
      refine .unanswered hwaits (hsent deadline hwaits) hanswer (fun hearly turn => ?_) fun hlate => ?_
      · cases turn with
        | own => rw [hown, if_neg (Nat.not_le_of_lt hearly)]
        | link => exact Client.go?_of_callStep? hwaits rfl
        | signal => exact Client.go?_of_callStep? hwaits rfl
      · rw [if_pos hlate] at hown
        exact ⟨_, hown, hwaits.hasEnded_answerCall _⟩

/-- However the steps of the client come after each other, a status request that has registered is answered
by the first answer that is taken in after that, unless its own send fails or its time is up before; and its send
breaks off only if the limit to the panel's silence is no duration. -/
theorem standing_after_history {settings : ClientSettings} {handlers : Handlers} {link : Link}
    {earlier actions : List ClientAction} {c d e : Client} {q : Inquiry}
    (hreach : (Client.new settings handlers link).performAll? earlier = some c)
    (hregisters : q.Registers c d) (hrun : d.performAll? actions = some e) : q.Standing actions d e := by
  have hsound : c.Sound := (Client.sound_new settings handlers link).performAll? hreach
  obtain ⟨hprogress, hsends⟩ := hregisters.inProgress hsound
  rcases hprogress.run hrun with hgoes | ⟨ending, hended, hends⟩
  · refine hgoes.standing fun deadline hwaits => ?_
    rcases hprogress.sentIn hrun hwaits with hstart | hsent
    · -- A call that has just registered is not waiting yet.
      rw [Waits, hsends] at hstart
      cases hstart
    · exact hsent
  · exact .ended hended hends

/-- A client that receives is asked for the arming, and the panel answers. -/
theorem standing_after_history_arming :
    ∃ (q : Inquiry) (earlier actions : List ClientAction) (c d e : Client),
      (Client.new .default .none (Link.new false false false)).performAll? earlier = some c ∧
        q.Registers c d ∧ d.performAll? actions = some e ∧ q.answer? e = some (.arming ⟨0⟩) ∧
        q.Standing actions d e := by
  let q : Inquiry := ⟨3, .ask "S14" (.ofMillis 5000), "S14", .ofMillis 5000, 0x14, 0⟩
  let earlier : List ClientAction :=
    .call .start :: [0, 0, 1, 1, 1, 1, 1].map (fun task => .go ⟨task, 0⟩ .own) ++ [.call q.call]
  let actions : List ClientAction :=
    [3, 3, 3, 3, 3].map (fun task => .go ⟨task, 0⟩ .own) ++
      [.arrive (.line "820360140000A8".toUTF8.data.toList), .go ⟨1, 0⟩ .own]
  have hrehearsal :
      ((Client.new .default .none (Link.new false false false)).performAll? earlier).bind (fun c =>
        (c.perform? (.go ⟨3, 0⟩ .own)).bind fun d => (d.performAll? actions).map fun e =>
          (c.tasks[3]?, c.asks? q.call, c.updates.length, q.answer? e))
        = some (some (.call q.call .fresh), some (q.command, q.patience), 0, some (.arming ⟨0⟩)) := by
    decide +kernel
  obtain ⟨c, hreach, hc⟩ := Option.bind_eq_some_iff.mp hrehearsal
  obtain ⟨d, hstep, hd⟩ := Option.bind_eq_some_iff.mp hc
  obtain ⟨e, hrun, he⟩ := Option.map_eq_some_iff.mp hd
  obtain ⟨hfresh, hasks, hseen, hanswer⟩ :
      c.tasks[3]? = some (.call q.call .fresh) ∧ c.asks? q.call = some (q.command, q.patience) ∧
        c.updates.length = 0 ∧ q.answer? e = some (.arming ⟨0⟩) := by
    simpa only [Prod.mk.injEq] using he
  have hcode : statusCode "S14" = .ok 0x14 := by cbv
  have hregisters : q.Registers c d := ⟨hfresh, hasks, hcode, hseen.symm, hstep⟩
  exact ⟨q, earlier, actions, c, d, e, hreach, hregisters, hrun, hanswer,
    standing_after_history hreach hregisters hrun⟩

/-- The longest update interval and a second of grace: a request that registers once the link has been up never
returns, whatever happens to the client later. -/
theorem never_returns_of_longest_interval :
    let settings := { ClientSettings.default with updateSeconds := 18446744073709551615, graceSeconds := 1 }
    let start := Client.new settings .none (Link.new false false false)
    let q : Inquiry := ⟨1, .ask "S14" (.ofMillis 1000), "S14", .ofMillis 1000, 0x14, 0⟩
    let earlier : List ClientAction := .call .connect :: .replicate 5 (.go ⟨0, 0⟩ .own) ++ [.call q.call]
    ∃ c d e, start.performAll? earlier = some c ∧ q.Registers c d ∧
      d.performAll? (.replicate 2 (.go ⟨1, 0⟩ .own)) = some e ∧
      ∀ later f, e.performAll? later = some f → q.HasEnded .died f := by
  intro settings start q earlier
  have hrun : (start.performAll? earlier).any fun c =>
      c.tasks[1]? = some (.call q.call .fresh) ∧ c.asks? q.call = some (q.command, q.patience) ∧
        c.updates.length = 0 ∧ (c.perform? (.go ⟨1, 0⟩ .own)).any fun d =>
          (d.performAll? (.replicate 2 (.go ⟨1, 0⟩ .own))).any fun e =>
            e.tasks[1]? = some (.over (.call q.call) .died) := by
    decide +kernel
  obtain ⟨c, hc, hasked⟩ := (Option.any_eq_true _ _).mp hrun
  obtain ⟨hfresh, hasks, hseen, hlater⟩ := of_decide_eq_true hasked
  obtain ⟨d, hd, hlater⟩ := (Option.any_eq_true _ _).mp hlater
  obtain ⟨e, he, hover⟩ := (Option.any_eq_true _ _).mp hlater
  have hnow : e.tasks[1]? = some (.over (.call q.call) .died) := of_decide_eq_true hover
  have hdied : q.HasEnded .died e := hnow
  have hcode : statusCode "S14" = .ok 0x14 := by cbv
  have hregisters : q.Registers c d := ⟨hfresh, hasks, hcode, hseen.symm, hd⟩
  have hsound : e.Sound :=
    (((Client.sound_new settings .none _).performAll? hc).perform? hd).performAll? he
  exact ⟨c, d, e, hc, hregisters, he, fun _ _ hf => hdied.performAll? hsound hf⟩

end Inquiry

end AlarmPanel
