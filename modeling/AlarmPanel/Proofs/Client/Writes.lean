import AlarmPanel.Proofs.Client.Moves

/-!
# What a call writes

A line is written by the strand that sends it, when it is through and never before. So a call that only sends
a command has written nothing up to its answer, and it is answered as done just when it has written the line
of its command, once (`Client.writesBy_of_call`).
-/

namespace AlarmPanel

/-- The line that an effect writes for a task. -/
def Effect.lineBy? (task : Nat) : Effect → Option String
  | .wrote writer line => if writer.task = task then some line else none
  | _ => none

theorem Effect.lineBy?_of_reports {effect : Effect} (h : effect.reports = true) (task : Nat) :
    effect.lineBy? task = none := by
  cases effect with
  | wrote writer line => cases h
  | _ => rfl

/-- The lines among the effects that are written for a task. -/
def linesBy (task : Nat) (effects : List Effect) : List String := effects.filterMap (Effect.lineBy? task)

/-- The command that a call sends, if this is all that the call does. -/
def Call.command? : Call → Option String
  | .send command => some command
  | .armAway code => some (armAwayCommand code)
  | .armHome code => some (armHomeCommand code)
  | .disarm code => some (disarmCommand code)
  | .panic code => some (panicCommand code)
  | .setAuxOutput number on => (switchCommand number on).toOption
  | _ => none

namespace Client

variable {c d : Client} {strand : Strand} {task : Nat} {turn : Turn} {more : List Effect} {line : String}
  {call : Call} {command : String} {state : Task}

/-- The lines that a task has written. -/
def writesBy (task : Nat) (c : Client) : List String := linesBy task c.effects

theorem Adds.writesBy_eq (h : c.Adds more d) (task : Nat) :
    d.writesBy task = c.writesBy task ++ linesBy task more := by
  rw [writesBy, h.effects_eq, linesBy, List.filterMap_append]
  rfl

theorem Adds.writesBy_of_silent (h : c.Adds more d) (hmore : linesBy task more = []) :
    d.writesBy task = c.writesBy task := by
  rw [h.writesBy_eq, hmore, List.append_nil]

/-! ## Moves -/

theorem ConnectMove.silent {place : ConnectPlace} {next : Next ConnectPlace (Except Error Unit)}
    (h : ConnectMove strand c place more next) (task : Nat) : linesBy task more = [] := by
  cases h with
  | fail hplace _ => rcases hplace with ⟨-, rfl⟩ | ⟨-, -, rfl⟩ <;> rfl
  | connect hplace => rcases hplace with ⟨-, rfl⟩ | ⟨-, -, rfl⟩ <;> rfl
  | _ => rfl

/-- The lines that a strand has written which sends one, by how it goes on. -/
def written (line : String) : Next SendPlace (Except Error Unit) → List String
  | .result (.ok ()) => [line]
  | .result (.error _) | .place _ | .dies => []

/-- A strand that sends writes its line when it is through, and for its own task. -/
theorem SendMove.linesBy_eq {place : SendPlace} {next : Next SendPlace (Except Error Unit)}
    (h : SendMove strand line c place more next) (task : Nat) :
    linesBy task more = if strand.task = task then written line next else [] := by
  have hnone (hmore : linesBy task more = []) (hnext : written line next = []) :
      linesBy task more = if strand.task = task then written line next else [] := by
    rw [hmore, hnext, ite_self]
  cases h with
  | connecting hmove => exact hnone (hmove.silent _) rfl
  | connected hmove => exact hnone (hmove.silent _) rfl
  | fail hmove => exact hnone (hmove.silent _) rfl
  | die hmove => exact hnone (hmove.silent _) rfl
  | write => by_cases hown : strand.task = task <;> simp [linesBy, Effect.lineBy?, written, hown]
  | _ => exact hnone rfl rfl

theorem SendMove.writes {place : SendPlace} {next : Next SendPlace (Except Error Unit)}
    (h : SendMove strand line c place more next) : linesBy strand.task more = written line next := by
  rw [h.linesBy_eq, if_pos rfl]

theorem SendMove.silent {place : SendPlace} {next : Next SendPlace (Except Error Unit)}
    (h : SendMove strand line c place more next) (hother : strand.task ≠ task) : linesBy task more = [] := by
  rw [h.linesBy_eq, if_neg hother]

theorem UpdateMove.silent {branches : Branches} {next : Next Branches (Except Error Unit)}
    (h : UpdateMove strand c branches more next) (hother : strand.task ≠ task) : linesBy task more = [] := by
  cases h with
  | goOn _ hmove => exact hmove.silent hother
  | done _ hmove => exact hmove.silent hother
  | last _ hmove => exact hmove.silent hother
  | fail _ hmove => exact hmove.silent hother
  | die _ hmove => exact hmove.silent hother

theorem ReceiveMove.silent {place : ReceivePlace} {now : Task} (h : ReceiveMove strand c place more now)
    (task : Nat) : linesBy task more = [] := by
  cases h with
  | connecting hmove => exact hmove.silent _
  | connected _ hmove => exact hmove.silent _
  | refused hmove => exact hmove.silent _
  | die hmove => exact hmove.silent _
  | read _ hmore =>
    exact List.filterMap_eq_nil_iff.mpr fun effect heffect =>
      Effect.lineBy?_of_reports (hmore effect heffect) task
  | _ => rfl

theorem RefreshMove.silent {place : RefreshPlace} {now : Task} (h : RefreshMove strand c place more now)
    (hother : strand.task ≠ task) : linesBy task more = [] := by
  cases h with
  | updating hmove => exact hmove.silent hother
  | rest _ hmove => exact hmove.silent hother
  | die hmove => exact hmove.silent hother
  | _ => rfl

theorem CallMove.silent {place : CallPlace} {now : Task} (h : CallMove strand c d call place more now)
    (hother : strand.task ≠ task) : linesBy task more = [] := by
  cases h with
  | connecting hmove => exact hmove.silent _
  | connected hmove => exact hmove.silent _
  | connectingDies hmove => exact hmove.silent _
  | sending hmove => exact hmove.silent hother
  | sent hmove => exact hmove.silent hother
  | sendingDies hmove => exact hmove.silent hother
  | requesting hmove => exact hmove.silent hother
  | requested _ hmove => exact hmove.silent hother
  | requestFails hmove => exact hmove.silent hother
  | requestDies hmove => exact hmove.silent hother
  | updating hmove => exact hmove.silent hother
  | updated hmove => exact hmove.silent hother
  | updateDies hmove => exact hmove.silent hother
  | _ => rfl

/-- A step writes for its own task only. -/
theorem Move.silent {was now : Task} (h : Move strand c d was more now) (hother : strand.task ≠ task) :
    linesBy task more = [] := by
  cases h with
  | receive hmove => exact hmove.silent task
  | refresh hmove => exact hmove.silent hother
  | call hmove => exact hmove.silent hother

/-- What is not a step of the task writes nothing for it. -/
theorem writesBy_of_others {action : ClientAction} (h : c.perform? action = some d)
    (hother : ∀ strand turn, action = .go strand turn → strand.task ≠ task) :
    d.writesBy task = c.writesBy task := by
  rcases move_of_perform? h with hadds | ⟨strand, turn, was, more, now, haction, -, hmove, hreaches⟩
  · exact hadds.writesBy_of_silent rfl
  · exact hreaches.adds.writesBy_of_silent (hmove.silent (hother strand turn haction))

/-! ## What a call has written -/

/-- Tasks that are not there yet have written nothing. -/
def AbsentSilent (c : Client) : Prop := ∀ task, c.tasks[task]? = none → c.writesBy task = []

/-- A task that is not there writes nothing. -/
theorem AbsentSilent.writesBy_eq_nil {action : ClientAction} (hc : c.AbsentSilent) (h : c.perform? action = some d)
    (habsent : c.tasks[task]? = none) : d.writesBy task = [] := by
  refine (writesBy_of_others h ?_).trans (hc task habsent)
  rintro strand turn rfl rfl
  obtain ⟨was, -, -, hwas, -⟩ := move_of_go? h
  rw [habsent] at hwas
  cases hwas

theorem AbsentSilent.perform? {action : ClientAction} (hc : c.AbsentSilent) (hknown : c.HandlesKnown)
    (h : c.perform? action = some d) : d.AbsentSilent := by
  intro task habsent
  refine hc.writesBy_eq_nil h ?_
  cases hbefore : c.tasks[task]? with
  | none => rfl
  | some was =>
    -- A task that has been there still is.
    have hrole : d.roleAt task = some was.role := roleAt_perform? h hknown (by rw [roleAt, hbefore]; rfl)
    rw [roleAt, habsent] at hrole
    cases hrole

/-- What holds of a call that has just been made and has written nothing, and is kept by every step of the call, holds
of the call and of what it has written after each history. -/
theorem call_writes_induction {P : List String → Task → Prop} {settings : ClientSettings} {handlers : Handlers}
    {link : Link} {history : List ClientAction} (h : (new settings handlers link).performAll? history = some c)
    (hfresh : P [] (.call call .fresh))
    (hstep : ∀ (strand : Strand) (turn : Turn) (c d : Client) (was now : Task), c.go? strand turn = some d →
      c.tasks[strand.task]? = some was → was.role = .call call → P (c.writesBy strand.task) was →
      d.tasks[strand.task]? = some now → P (d.writesBy strand.task) now)
    (hstate : c.tasks[task]? = some state) (hcall : state.role = .call call) : P (c.writesBy task) state := by
  have hkept : c.AbsentSilent ∧ ∀ (task : Nat) (state : Task), c.tasks[task]? = some state →
      state.role = .call call → P (c.writesBy task) state := by
    refine performAll?_new_induction (P := fun c => c.AbsentSilent ∧ ∀ (task : Nat) (state : Task),
      c.tasks[task]? = some state → state.role = .call call → P (c.writesBy task) state) h
      ⟨fun _ _ => rfl, fun _ _ hstate => by cases hstate⟩ ?_
    rintro action c d ⟨hsilent, hcalls⟩ hknown hd
    refine ⟨hsilent.perform? hknown hd, fun task state hstate hcall => ?_⟩
    cases hbefore : c.tasks[task]? with
    | none =>
      -- The call has just been made.
      rcases call_perform?_cases hd hknown hstate hcall with hsame | rfl | ⟨_, _, was, -, -, hwas, -⟩
      · rw [hbefore] at hsame
        cases hsame
      · rw [hsilent.writesBy_eq_nil hd hbefore]
        exact hfresh
      · rw [hbefore] at hwas
        cases hwas
    | some was =>
      have hrole : was.role = .call call := (role_eq_of_perform? hd hknown hbefore hstate).trans hcall
      rcases action.own_or_other task with ⟨strand, turn, rfl, rfl⟩ | hothers
      · exact hstep strand turn c d was state hd hbefore hrole (hcalls _ was hbefore hrole) hstate
      · have hsame := calls_perform? hd hknown hbefore hrole hothers
        obtain rfl := Option.some.inj (hsame.symm.trans hstate)
        rw [writesBy_of_others hd hothers]
        exact hcalls task was hbefore hrole
  exact hkept.2 task state hstate hcall

/-! ## Calls that send a command -/

/-- What a task has written that sends this command, by where it stands. -/
def Sends (command : String) (lines : List String) : Task → Prop
  | .call _ .fresh => lines = []
  | .call _ (.sending line _) => requestLine? command = .ok line ∧ lines = []
  | .over _ (.answered .done) => requestLine? command = .ok (requestLine command) ∧ lines = [requestLine command]
  | .over _ _ => lines = []
  | _ => False

theorem eq_requestLine_of_requestLine? (h : requestLine? command = .ok line) : line = requestLine command := by
  unfold requestLine? at h
  dsimp only at h
  split at h
  next => cases h
  next => exact (Except.ok.inj h).symm

theorem byteLength_of_requestLine? (h : requestLine? command = .ok line) :
    Text.byteLength command.toList ≤ longestCommand := by
  unfold requestLine? at h
  dsimp only at h
  split at h
  next => cases h
  next hshort => exact Nat.not_lt.mp hshort

/-- A call that sends its command has written its line if it has been answered as done, and nothing else ever. -/
theorem Sends.lines_eq {command : String} {lines : List String} {call : Call} (h : Sends command lines state)
    (hcall : state.role = .call call) :
    lines = if state = .over (.call call) (.answered .done) then [requestLine command] else [] := by
  by_cases hdone : state = .over (.call call) (.answered .done)
  · subst hdone
    rw [if_pos rfl]
    exact h.2
  · rw [if_neg hdone]
    unfold Sends at h
    split at h
    next => exact h
    next => exact h.2
    next role =>
      obtain rfl : role = .call call := hcall
      exact absurd rfl hdone
    next => exact h
    next => exact h.elim

theorem beginCall_of_command? (h : call.command? = some command) (task : Nat) (c : Client) :
    c.beginCall task call = c.beginSend task call (.ok command) := by
  cases call with
  | setAuxOutput number on =>
    have hcommand : switchCommand number on = .ok command := toOption_eq_some_iff.mp h
    rw [← hcommand]
    rfl
  | send | armAway | armHome | disarm | panic =>
    cases h
    rfl
  | _ => cases h

/-- The first step of a call. -/
theorem eq_beginCall_of_go? (h : c.go? strand turn = some d) (hwas : c.tasks[strand.task]? = some (.call call .fresh)) :
    d = c.beginCall strand.task call := by
  simp only [go?, hwas] at h
  obtain ⟨-, h⟩ := Option.ite_none_right_eq_some.mp h
  unfold callStep? at h
  cases turn with
  | own => exact (Option.some.inj h).symm
  | link => cases h
  | signal => cases h

/-- The first step writes nothing, and refuses a command that is too long. -/
theorem sends_beginSend (hwas : c.tasks[task]? = some (.call call .fresh)) (hnone : c.writesBy task = [])
    (hstate : (c.beginSend task call (.ok command)).tasks[task]? = some state) :
    Sends command ((c.beginSend task call (.ok command)).writesBy task) state := by
  unfold beginSend at hstate ⊢
  cases hline : requestLine? command with
  | ok line =>
    have hreaches := reaches_setTask (.refl c) rfl hwas (.call call (.sending line (.connecting .asking)))
    simp only [Except.bind, hline] at hstate ⊢
    obtain rfl := Option.some.inj (hreaches.now_eq.symm.trans hstate)
    exact ⟨hline, (hreaches.adds.writesBy_of_silent rfl).trans hnone⟩
  | error e =>
    have hreaches := reaches_finish (.refl c) rfl hwas (.call call) (.answered (.failed e))
    simp only [Except.bind, hline] at hstate ⊢
    obtain rfl := Option.some.inj (hreaches.now_eq.symm.trans hstate)
    exact (hreaches.adds.writesBy_of_silent rfl).trans hnone

/-- A step of a call that sends its command. -/
theorem sends_of_go? (h : c.go? strand turn = some d) {was : Task} (hwas : c.tasks[strand.task]? = some was)
    (hcall : was.role = .call call) (hcommand : call.command? = some command)
    (hsends : Sends command (c.writesBy strand.task) was) (hstate : d.tasks[strand.task]? = some state) :
    Sends command (d.writesBy strand.task) state := by
  obtain ⟨more, hmove, hreaches⟩ := move_of_go?_of_tasks h hwas hstate
  cases hmove with
  | receive => cases hcall
  | refresh => cases hcall
  | call hmove =>
    cases hcall
    cases hmove with
    | begin hmove =>
      obtain rfl := eq_beginCall_of_go? h hwas
      rw [beginCall_of_command? hcommand] at hstate ⊢
      exact sends_beginSend hwas hsends hstate
    | sending hmove =>
      obtain ⟨hline, hnone⟩ := hsends
      exact ⟨hline, (hreaches.adds.writesBy_of_silent hmove.writes).trans hnone⟩
    | @sent _ line place more result hmove =>
      obtain ⟨hline, hnone⟩ := hsends
      have hwrites := hreaches.adds.writesBy_eq strand.task
      rw [hnone, hmove.writes, List.nil_append] at hwrites
      obtain rfl := eq_requestLine_of_requestLine? hline
      cases result with
      | ok => exact ⟨hline, hwrites⟩
      | error e => exact hwrites
    | sendingDies hmove =>
      obtain ⟨-, hnone⟩ := hsends
      exact (hreaches.adds.writesBy_of_silent hmove.writes).trans hnone
    | _ => exact hsends.elim

/-- What a call that only sends a command has written in a history. -/
theorem writesBy_of_call {settings : ClientSettings} {handlers : Handlers} {link : Link}
    {actions : List ClientAction} (h : (new settings handlers link).performAll? actions = some c)
    (hstate : c.tasks[task]? = some state) (hcall : state.role = .call call)
    (hcommand : call.command? = some command) : Sends command (c.writesBy task) state :=
  call_writes_induction (P := Sends command) h rfl
    (fun _ _ _ _ _ _ hgo hwas hrole hsends hnow => sends_of_go? hgo hwas hrole hcommand hsends hnow) hstate hcall

/-! ## Calls that are answered at once -/

/-- The call has been answered so, or its first step answers it so, which it can make at any time. -/
def Answers (task : Nat) (call : Call) (answer : Answer) (c : Client) : Prop :=
  c.tasks[task]? = some (.over (.call call) (.answered answer)) ∨
    ∃ d, c.perform? (.go ⟨task, 0⟩ .own) = some d ∧
      d.tasks[task]? = some (.over (.call call) (.answered answer))

/-- Wherever the call begins, its first step answers it so. -/
def AnsweredAtOnce (call : Call) (answer : Answer) : Prop :=
  ∀ (task : Nat) (c : Client), c.tasks[task]? = some (.call call .fresh) →
    (c.beginCall task call).tasks[task]? = some (.over (.call call) (.answered answer))

/-- Such a call is about to begin, or it is over with this answer. -/
def BeforeOrAfter (call : Call) (answer : Answer) (c : Client) : Prop :=
  ∀ (task : Nat) (state : Task), c.tasks[task]? = some state → state.role = .call call →
    state = .call call .fresh ∨ state = .over (.call call) (.answered answer)

theorem BeforeOrAfter.perform? {answer : Answer} {action : ClientAction} (hc : c.BeforeOrAfter call answer)
    (honce : AnsweredAtOnce call answer) (hknown : c.HandlesKnown) (h : c.perform? action = some d) :
    d.BeforeOrAfter call answer := by
  intro task state hstate hcall
  rcases call_perform?_cases h hknown hstate hcall with hsame | hfresh | ⟨strand, turn, was, rfl, rfl, hwas, hrole⟩
  · exact hc task state hsame hcall
  · exact .inl hfresh
  · rcases hc _ was hwas hrole with rfl | rfl
    · obtain rfl := eq_beginCall_of_go? h hwas
      exact .inr (Option.some.inj (hstate.symm.trans (honce strand.task c hwas)))
    · -- A task that is over makes no step.
      obtain ⟨was, _, _, hnow, hmove, -⟩ := move_of_go? h
      obtain rfl := Option.some.inj (hwas.symm.trans hnow)
      cases hmove

theorem beforeOrAfter_new (settings : ClientSettings) (handlers : Handlers) (link : Link) (answer : Answer) :
    (new settings handlers link).BeforeOrAfter call answer := by
  intro task state hstate
  cases hstate

theorem beforeOrAfter_of_answeredAtOnce {settings : ClientSettings} {handlers : Handlers} {link : Link}
    {history : List ClientAction} {answer : Answer} (h : (new settings handlers link).performAll? history = some c)
    (honce : AnsweredAtOnce call answer) : c.BeforeOrAfter call answer :=
  performAll?_new_induction h (beforeOrAfter_new settings handlers link answer)
    fun _ _ _ hc hknown hstep => hc.perform? honce hknown hstep

/-- In every history such a call has been answered so, or can be at any time. -/
theorem answers_of_answeredAtOnce {settings : ClientSettings} {handlers : Handlers} {link : Link}
    {history : List ClientAction} {answer : Answer} (h : (new settings handlers link).performAll? history = some c)
    (honce : AnsweredAtOnce call answer) (hrole : c.roleAt task = some (.call call)) : c.Answers task call answer := by
  obtain ⟨state, hstate, hcall⟩ := Option.map_eq_some_iff.mp hrole
  rcases beforeOrAfter_of_answeredAtOnce h honce task state hstate hcall with rfl | rfl
  · exact .inr ⟨c.beginCall task call, go?_of_callStep? hstate rfl, honce task c hstate⟩
  · exact .inl hstate

theorem answeredAtOnce_of_refused {number : UInt8} {on : Bool} {e : Error}
    (hrefused : switchCommand number on = .error e) :
    AnsweredAtOnce (.setAuxOutput number on) (.failed e) := by
  intro task c hwas
  have hanswer : c.beginCall task (.setAuxOutput number on) =
      c.answerCall task (.setAuxOutput number on) (.failed e) := by
    simp only [beginCall, beginSend, hrefused, Except.bind]
  rw [hanswer]
  exact (reaches_finish (.refl c) rfl hwas _ _).now_eq

end Client

end AlarmPanel
