import AlarmPanel.Proofs.Client.Correlation
import AlarmPanel.Proofs.Client.Lines

/-!
# What comes into the slot of a call

From its registration on a call has a slot, and a status update comes into it only if it answers the command that the
call sends (`Client.answers_of_slot`). The commands for the version of the panel and for the outputs have codes that no
other update answers. So the calls for these two never find an update of another kind in their slots, and no call at
all ends with the error for one (`Client.response_as_asked`).
-/

namespace AlarmPanel

/-! ## Requests and their codes -/

theorem RequestId.code_injective {r s : RequestId} (h : r.code = s.code) : r = s := by
  have hboth : some r = some s := by rw [← ofCode?_code r, ← ofCode?_code s, h]
  exact Option.some.inj hboth

/-- The command asks for what the update says. -/
def StatusUpdate.Answers (update : StatusUpdate) (command : String) : Prop :=
  statusCode command = .ok update.request.code

/-- An update that answers the command for a status is of that status. -/
theorem StatusUpdate.Answers.request_eq {update : StatusUpdate} {r : RequestId} (h : update.Answers r.command) :
    update.request = r := by
  have hcodes : (Except.ok update.request.code : Except Error UInt8) = .ok r.code := by
    rw [← statusCode_command r, ← h]
  exact RequestId.code_injective (Except.ok.inj hcodes)

theorem StatusUpdate.exists_of_panelVersion {update : StatusUpdate} (h : update.request = .panelVersion) :
    ∃ model major minor, update = .panelVersion model major minor := by
  cases update with
  | panelVersion model major minor => exact ⟨model, major, minor, rfl⟩
  | _ => cases h

theorem StatusUpdate.exists_of_auxOutputs {update : StatusUpdate} (h : update.request = .auxOutputs) :
    ∃ flags, update = .auxOutputs flags := by
  cases update with
  | auxOutputs flags => exact ⟨flags, rfl⟩
  | _ => cases h

/-- The slot of a call. -/
def CallPlace.slot? : CallPlace → Option Nat
  | .requesting slot _ _ _ _ => some slot
  | .awaiting slot _ _ => some slot
  | _ => none

/-- The errors with which a call may end. -/
inductive CallError : Error → Prop
  | closed : CallError .closed
  | broken : CallError (.io "broken")
  | wrong (fault : ArgumentFault) : CallError (.invalidArgument fault)
  | late (command : String) : CallError (.commandTimeout command)

/-- An answer that is no error, or one of those that calls may end with. -/
def Answer.Regular : Answer → Prop
  | .failed e => CallError e
  | _ => True

theorem answer_regular_of_result {result : Except Error Unit} (h : ∀ e, result = .error e → CallError e) :
    (Client.plainAnswer result).Regular := by
  cases result with
  | ok => trivial
  | error e => exact h e rfl

namespace Client

variable {c d : Client} {strand : Strand} {task slot : Nat} {turn : Turn} {was now state : Task} {more : List Effect}
  {call : Call} {command : String} {action : ClientAction} {q : Inquiry} {e : Error}

/-! ## Errors of strands -/

theorem ConnectMove.error {place : ConnectPlace} (h : ConnectMove strand c place more (.result (.error e))) :
    CallError e := by
  cases h with
  | refuse | signal => exact .closed

theorem SendMove.error {line : String} {place : SendPlace}
    (h : SendMove strand line c place more (.result (.error e))) : CallError e := by
  cases h with
  | fail hmove => exact hmove.error
  | fault => exact .broken

theorem UpdateMove.error {branches : Branches} (h : UpdateMove strand c branches more (.result (.error e))) :
    CallError e := by
  cases h with
  | fail _ hmove => exact hmove.error

/-! ## Registration -/

/-- Only a status request has a slot after its first step. -/
theorem exists_asks_of_slot {place : CallPlace} (hwas : c.tasks[task]? = some (.call call .fresh))
    (hstate : (c.beginCall task call).tasks[task]? = some (.call call place)) (hslot : place.slot? = some slot) :
    ∃ command patience code, c.asks? call = some (command, patience) ∧ statusCode command = .ok code := by
  have hover {d : Client} {ending : Ending} (hreaches : c.Reaches task [] (.over (.call call) ending) d)
      (hd : d.tasks[task]? = some (.call call place)) : False := by
    cases Option.some.inj (hreaches.now_eq.symm.trans hd)
  have hplace {d : Client} {there : CallPlace} (hreaches : c.Reaches task [] (.call call there) d)
      (hthere : there.slot? = none) (hd : d.tasks[task]? = some (.call call place)) : False := by
    cases Option.some.inj (hreaches.now_eq.symm.trans hd)
    cases hthere.symm.trans hslot
  cases hasks : c.asks? call with
  | some asked =>
    obtain ⟨command, patience⟩ := asked
    cases hcode : statusCode command with
    | ok code => exact ⟨command, patience, code, rfl, hcode⟩
    | error e =>
      rw [beginCall_of_asks? hasks] at hstate
      simp only [beginAsk, hcode] at hstate
      exact (hover (reaches_finish (.refl c) rfl hwas _ _) hstate).elim
  | none =>
    exfalso
    cases call with
    | ask | refreshAuxOutputs => cases hasks
    | panelInfo =>
      simp only [beginCall] at hstate
      split at hstate
      next => exact hover (reaches_finish (.refl c) rfl hwas _ _) hstate
      next hunknown =>
        simp only [asks?, hunknown, Option.isNone_none, if_true] at hasks
        cases hasks
    | send | armAway | armHome | disarm | panic | setAuxOutput =>
      simp only [beginCall, beginSend] at hstate
      split at hstate
      next => exact hplace (reaches_setTask (.refl c) rfl hwas _) rfl hstate
      next => exact hover (reaches_finish (.refl c) rfl hwas _ _) hstate
    | connect | update => exact hplace (reaches_setTask (.refl c) rfl hwas _) rfl hstate
    | start | keepalive | close | zone =>
      obtain ⟨first, hfirst, hreaches⟩ := firstMove_beginCall hwas
      obtain rfl := Option.some.inj (hreaches.now_eq.symm.trans hstate)
      cases hfirst with
      | ask _ _ _ _ hlink => cases hlink
      | _ => cases hslot

theorem mem_commands_of_asks? {patience : Duration} {code : UInt8} (hasks : c.asks? call = some (command, patience))
    (hcode : statusCode command = .ok code) : command ∈ call.commands := by
  cases call with
  | ask =>
    cases hasks
    rw [Call.commands, hcode]
    exact List.mem_singleton_self command
  | refreshAuxOutputs =>
    cases hasks
    exact List.mem_singleton_self _
  | panelInfo =>
    obtain ⟨-, hasked⟩ := Option.ite_none_right_eq_some.mp hasks
    cases hasked
    exact List.mem_singleton_self _
  | _ => cases hasks

/-! ## Slots -/

/-- The call sends one of its commands, or has sent it, and has this slot for the answer. -/
def Inquires (task : Nat) (call : Call) (slot : Nat) (c : Client) : Prop :=
  ∃ q : Inquiry, q.task = task ∧ q.call = call ∧ statusCode q.command = .ok q.code ∧ q.command ∈ call.commands ∧
    q.InProgress slot c

/-- Every call with a slot has it for the answer to a command of its own. -/
def SlotsInquire (c : Client) : Prop :=
  ∀ task call place slot, c.tasks[task]? = some (.call call place) → place.slot? = some slot → c.Inquires task call slot

/-- A request that is in progress has one slot. -/
theorem slot_eq_of_inProgress {place : CallPlace} {other : Nat} (h : q.InProgress slot c)
    (hstate : c.tasks[q.task]? = some (.call call place)) (hslot : place.slot? = some other) : slot = other := by
  rcases h.place with ⟨line, here, hsends⟩ | ⟨deadline, hwaits⟩
  · cases Option.some.inj (hsends.symm.trans hstate)
    exact Option.some.inj hslot
  · cases Option.some.inj (hwaits.symm.trans hstate)
    exact Option.some.inj hslot

/-- The first step of a status request gives it a slot for the answer. -/
theorem inquires_of_begin {place : CallPlace} (hsound : c.Sound)
    (hwas : c.tasks[strand.task]? = some (.call call .fresh)) (hstep : c.go? strand turn = some d)
    (hstate : d.tasks[strand.task]? = some (.call call place)) (hslot : place.slot? = some slot) :
    d.Inquires strand.task call slot := by
  obtain rfl := eq_beginCall_of_go? hstep hwas
  obtain ⟨command, patience, code, hasks, hcode⟩ := exists_asks_of_slot hwas hstate hslot
  let q : Inquiry := ⟨strand.task, call, command, patience, code, c.updates.length⟩
  have hregisters : q.Registers c (c.beginCall strand.task call) :=
    ⟨hwas, hasks, hcode, rfl, go?_of_callStep? hwas rfl⟩
  obtain ⟨hprogress, -⟩ := hregisters.inProgress hsound
  obtain rfl := slot_eq_of_inProgress hprogress hstate hslot
  exact ⟨q, rfl, rfl, hcode, mem_commands_of_asks? hasks hcode, hprogress⟩

/-- A call gets its slot with its first step. -/
theorem CallMove.slot_cases {here place : CallPlace} (h : CallMove strand c d call here more (.call call place))
    (hslot : place.slot? = some slot) : here = .fresh ∨ here.slot? = some slot := by
  cases h with
  | begin => exact .inl rfl
  | requesting | requested => exact .inr hslot
  | _ => cases hslot

/-- Whatever happens, the slot of a request stays its slot. -/
theorem Inquires.perform? {place : CallPlace} (h : c.Inquires task call slot) (hstep : c.perform? action = some d)
    (hstate : d.tasks[task]? = some (.call call place)) : d.Inquires task call slot := by
  obtain ⟨q, rfl, rfl, hcode, hcommand, hprogress⟩ := h
  rcases hprogress.step hstep with hgoes | ⟨turn, ending, -, -, hended⟩
  · exact ⟨q, rfl, rfl, hcode, hcommand, hgoes⟩
  · cases Option.some.inj (hended.symm.trans hstate)

theorem SlotsInquire.perform? (hc : c.SlotsInquire) (hsound : c.Sound) (hstep : c.perform? action = some d) :
    d.SlotsInquire := by
  intro task call place slot hstate hslot
  rcases call_perform?_cases hstep hsound.handles hstate rfl with
    hsame | hfresh | ⟨strand, turn, was, rfl, rfl, hwas, hrole⟩
  · exact (hc task call place slot hsame hslot).perform? hstep hstate
  · cases hfresh
    cases hslot
  · obtain ⟨more, hmove, hreaches⟩ := move_of_go?_of_tasks hstep hwas hstate
    cases hmove with
    | receive => cases hrole
    | refresh => cases hrole
    | @call asked here more now hmove =>
      cases hrole
      rcases hmove.slot_cases hslot with rfl | hbefore
      · exact inquires_of_begin hsound hwas hstep hstate hslot
      · exact (hc strand.task call here slot hwas hbefore).perform? hstep hstate

/-- What comes into the slot of a call answers a command of the call. -/
theorem Inquires.answers (h : c.Inquires task call slot) {update : StatusUpdate}
    (hfilled : c.slots[slot]? = some (some update)) : ∃ command ∈ call.commands, update.Answers command := by
  obtain ⟨q, -, rfl, hcode, hcommand, hprogress⟩ := h
  refine ⟨q.command, hcommand, ?_⟩
  have hawaits := hprogress.awaits
  unfold Awaits at hawaits
  cases hanswer : c.answerSince? q.code q.seen with
  | none =>
    -- A slot that is open is empty.
    rw [hanswer] at hawaits
    cases (hprogress.sound.table.empty _ hawaits).symm.trans hfilled
  | some answer =>
    rw [hanswer] at hawaits
    obtain rfl := Option.some.inj (Option.some.inj (hawaits.symm.trans hfilled))
    have hrequest : answer.request.code = q.code := of_decide_eq_true (List.find?_some hanswer :)
    rw [StatusUpdate.Answers, hcode, hrequest]

/-! ## Answers -/

/-- An update that answers a command of the call makes no error. -/
theorem regular_answerOf {update : StatusUpdate} (h : ∃ command ∈ call.commands, update.Answers command) :
    (answerOf call update).Regular := by
  obtain ⟨command, hcommand, hanswers⟩ := h
  cases call with
  | panelInfo =>
    obtain rfl := List.mem_singleton.mp hcommand
    obtain ⟨model, major, minor, rfl⟩ := StatusUpdate.exists_of_panelVersion hanswers.request_eq
    trivial
  | refreshAuxOutputs =>
    obtain rfl := List.mem_singleton.mp hcommand
    obtain ⟨flags, rfl⟩ := StatusUpdate.exists_of_auxOutputs hanswers.request_eq
    trivial
  | _ => trivial

/-- Every answer so far is none of an update of the wrong kind. -/
def AnswersRegular (c : Client) : Prop :=
  ∀ (task : Nat) (call : Call) (answer : Answer),
    c.tasks[task]? = some (.over (.call call) (.answered answer)) → answer.Regular

/-- The call that waits in its slot. -/
theorem regular_of_awaited {deadline : Nat} {answer : Answer} (hc : c.SlotsInquire)
    (hwas : c.tasks[task]? = some (.call call (.awaiting slot command deadline))) (hstep : c.perform? action = some d)
    (hstate : d.tasks[task]? = some (.over (.call call) (.answered answer))) : answer.Regular := by
  obtain ⟨q, rfl, rfl, hcode, hcommand, hprogress⟩ := hc task call _ slot hwas rfl
  rcases hprogress.step hstep with hgoes | ⟨turn, ending, -, hends, hended⟩
  · rcases hgoes.place with ⟨line, here, hsends⟩ | ⟨deadline, hwaits⟩
    · cases Option.some.inj (hsends.symm.trans hstate)
    · cases Option.some.inj (hwaits.symm.trans hstate)
  · cases Option.some.inj (hended.symm.trans hstate)
    cases hends with
    | @answered slot deadline update hwaits hanswer =>
      have hrequest : update.request.code = q.code := of_decide_eq_true (List.find?_some hanswer :)
      exact regular_answerOf ⟨q.command, hcommand, hcode.trans (congrArg Except.ok hrequest.symm)⟩
    | timedOut => exact .late _
    | sendFailed hsends => cases Option.some.inj (hsends.symm.trans hwas)

theorem AnswersRegular.perform? (hc : c.AnswersRegular) (hslots : c.SlotsInquire) (hsound : c.Sound)
    (hstep : c.perform? action = some d) : d.AnswersRegular := by
  intro task call answer hstate
  rcases call_perform?_cases hstep hsound.handles hstate rfl with
    hsame | hfresh | ⟨strand, turn, was, rfl, rfl, hwas, hrole⟩
  · exact hc task call answer hsame
  · cases hfresh
  · obtain ⟨more, hmove, hreaches⟩ := move_of_go?_of_tasks hstep hwas hstate
    cases hmove with
    | receive => cases hrole
    | refresh => cases hrole
    | call hmove =>
      cases hrole
      cases hmove with
      | begin hmove =>
        cases hmove with
        | refuse fault => exact .wrong fault
        | _ => trivial
      | connected hmove => exact answer_regular_of_result fun e he => (he ▸ hmove).error
      | sent hmove => exact answer_regular_of_result fun e he => (he ▸ hmove).error
      | updated hmove => exact answer_regular_of_result fun e he => (he ▸ hmove).error
      | requestFails hmove => exact hmove.error
      | awaited => exact regular_of_awaited hslots hwas hstep hstate
      | _ => trivial

/-! ## Histories -/

/-- What is known of all slots and answers. -/
structure Responsive (c : Client) : Prop where
  sound : c.Sound
  slots : c.SlotsInquire
  answers : c.AnswersRegular

theorem responsive_new (settings : ClientSettings) (handlers : Handlers) (link : Link) :
    (new settings handlers link).Responsive where
  sound := sound_new settings handlers link
  slots _ _ _ _ hstate := by cases hstate
  answers _ _ _ hstate := by cases hstate

theorem Responsive.perform? (hc : c.Responsive) (hstep : c.perform? action = some d) : d.Responsive where
  sound := hc.sound.perform? hstep
  slots := hc.slots.perform? hc.sound hstep
  answers := hc.answers.perform? hc.slots hc.sound hstep

theorem responsive_of_performAll? {settings : ClientSettings} {handlers : Handlers} {link : Link}
    {history : List ClientAction} (h : (new settings handlers link).performAll? history = some c) : c.Responsive :=
  performAll?_induction (fun _ _ _ hc hstep => hc.perform? hstep) h (responsive_new settings handlers link)

/-- Whatever status updates have come in, for whatever requests: an update in the slot of a call answers a command that
the call sends. So a call for the version of the panel finds nothing but a version in its slot, and a call for the
outputs nothing but outputs; and no call has been answered with the error for an update of another kind, since the
errors of calls are that the client is closed, that the write has failed, that the argument is wrong and that the time
is up. -/
theorem response_as_asked {settings : ClientSettings} {handlers : Handlers} {link : Link}
    {history : List ClientAction} (h : (new settings handlers link).performAll? history = some c) :
    (∀ (task : Nat) (call : Call) (place : CallPlace) (slot : Nat) (update : StatusUpdate),
      c.tasks[task]? = some (.call call place) → place.slot? = some slot → c.slots[slot]? = some (some update) →
      (∃ command ∈ call.commands, update.Answers command) ∧
      (call = .panelInfo → ∃ model major minor, update = .panelVersion model major minor) ∧
      (call = .refreshAuxOutputs → ∃ flags, update = .auxOutputs flags)) ∧
    ∀ (task : Nat) (call : Call) (answer : Answer), c.tasks[task]? = some (.over (.call call) (.answered answer)) →
      answer.Regular ∧ ∀ fault, answer ≠ .failed (.unexpectedResponse fault) := by
  have hc := responsive_of_performAll? h
  constructor
  · intro task call place slot update hstate hslot hfilled
    have hanswers := (hc.slots task call place slot hstate hslot).answers hfilled
    refine ⟨hanswers, ?_, ?_⟩
    · rintro rfl
      obtain ⟨command, hcommand, hupdate⟩ := hanswers
      obtain rfl := List.mem_singleton.mp hcommand
      exact StatusUpdate.exists_of_panelVersion hupdate.request_eq
    · rintro rfl
      obtain ⟨command, hcommand, hupdate⟩ := hanswers
      obtain rfl := List.mem_singleton.mp hcommand
      exact StatusUpdate.exists_of_auxOutputs hupdate.request_eq
  · intro task call answer hstate
    have hregular := hc.answers task call answer hstate
    refine ⟨hregular, ?_⟩
    rintro fault rfl
    cases hregular

/-- Both calls wait when outputs come in, then the arming and then a version. The call for the outputs is answered, and
the other one still stands at its slot. -/
theorem response_as_asked_both :
    let own (tasks : List Nat) : List ClientAction := tasks.map fun task => .go ⟨task, 0⟩ .own
    let arrive (line : String) : List ClientAction :=
      [.arrive (.line line.toUTF8.data.toList), .go ⟨1, 0⟩ .own]
    let history : List ClientAction :=
      .call .start :: own [0, 0, 1, 1, 1, 1, 1] ++ [.call .panelInfo, .call .refreshAuxOutputs] ++
        own [3, 3, 3, 3, 3, 3, 4, 4, 4, 4, 4, 4] ++ arrive "820360180005A0" ++ arrive "820360140000A8" ++
        arrive "82036017008728" ++ own [4]
    ∃ c, (new .default .none (.new false false false)).performAll? history = some c ∧
      c.tasks[3]? = some (.call .panelInfo (.awaiting 0 "S17" 5000)) ∧
      c.slots[0]? = some (some (.panelVersion .d16x 8 7)) ∧
      (∃ command ∈ Call.panelInfo.commands, (StatusUpdate.panelVersion .d16x 8 7).Answers command) ∧
      c.tasks[4]? = some (.over (.call .refreshAuxOutputs) (.answered (.auxOutputs ⟨5⟩))) ∧
      (Answer.auxOutputs ⟨5⟩).Regular := by
  intro own arrive history
  have hrun : ((new .default .none (.new false false false)).performAll? history).any fun c =>
      c.tasks[3]? = some (.call .panelInfo (.awaiting 0 "S17" 5000)) ∧
      c.slots[0]? = some (some (.panelVersion .d16x 8 7)) ∧
      c.tasks[4]? = some (.over (.call .refreshAuxOutputs) (.answered (.auxOutputs ⟨5⟩))) := by decide +kernel
  obtain ⟨c, hc, hrest⟩ := (Option.any_eq_true _ _).mp hrun
  obtain ⟨hwaits, hfilled, hanswered⟩ := of_decide_eq_true hrest
  obtain ⟨hslots, hanswers⟩ := response_as_asked hc
  have hanswers3 := (hslots 3 .panelInfo (.awaiting 0 "S17" 5000) 0 _ hwaits rfl hfilled).1
  exact ⟨c, hc, hwaits, hfilled, hanswers3, hanswered, (hanswers 4 _ _ hanswered).1⟩

end Client

end AlarmPanel
