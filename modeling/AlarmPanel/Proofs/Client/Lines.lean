import AlarmPanel.Proofs.Circuit.Places
import AlarmPanel.Proofs.Client.Request
import AlarmPanel.Proofs.Client.Writes

/-!
# Whose the lines are

A task makes its lines ready when it begins to send, and what it then writes is one of them. So every line that the
client writes carries a command that its task is there to send (`Client.owns_of_mem_writesBy`): that of its call, or
one of an update. A call with an argument that is out of range has no command, and writes nothing.
-/

namespace AlarmPanel

/-! ## Commands -/

/-- The commands that a call may send. -/
def Call.commands : Call → List String
  | .ask command _ => if (statusCode command).toOption.isSome then [command] else []
  | .update => updateCommands
  | .panelInfo => [RequestId.command .panelVersion]
  | .refreshAuxOutputs => [RequestId.command .auxOutputs]
  | call => call.command?.toList

/-- The commands that a task with this role may send. -/
def Role.commands : Role → List String
  | .receive => []
  | .refresh => updateCommands
  | .call asked => asked.commands

/-- The line carries a command that a task with this role may send. -/
def Role.Owns (role : Role) (line : String) : Prop :=
  ∃ command ∈ role.commands, requestLine? command = .ok line

/-- The command is one that a task with this role is there to send: a command or an update that was asked for, an
update of the background task, or a status request. -/
inductive Role.Transmits : Role → String → Prop
  | command {call : Call} {command : String} (h : call.command? = some command) : Transmits (.call call) command
  | update {command : String} (h : command ∈ updateCommands) : Transmits (.call .update) command
  | refresh {command : String} (h : command ∈ updateCommands) : Transmits .refresh command
  | ask {command : String} {patience : Duration} {code : UInt8} (h : statusCode command = .ok code) :
      Transmits (.call (.ask command patience)) command
  | panelInfo : Transmits (.call .panelInfo) (RequestId.command .panelVersion)
  | auxOutputs : Transmits (.call .refreshAuxOutputs) (RequestId.command .auxOutputs)

theorem Role.transmits_of_mem {role : Role} {command : String} (h : command ∈ role.commands) :
    role.Transmits command := by
  cases role with
  | receive => cases h
  | refresh => exact .refresh h
  | call asked =>
    cases asked with
    | update => exact .update h
    | ask text patience =>
      rw [commands, Call.commands] at h
      split at h
      next hasks =>
        obtain rfl := List.mem_singleton.mp h
        obtain ⟨code, hcode⟩ := Option.isSome_iff_exists.mp hasks
        exact .ask (toOption_eq_some_iff.mp hcode)
      next => cases h
    | panelInfo =>
      obtain rfl := List.mem_singleton.mp h
      exact .panelInfo
    | refreshAuxOutputs =>
      obtain rfl := List.mem_singleton.mp h
      exact .auxOutputs
    | _ => exact .command (Option.mem_toList.mp h)

theorem requestLine?_of_byteLength {command : String} (h : Text.byteLength command.toList ≤ longestCommand) :
    requestLine? command = .ok (requestLine command) := if_neg (Nat.not_lt.mpr h)

theorem Call.commands_of_command? {call : Call} {command : String} (h : call.command? = some command) :
    call.commands = [command] := by
  cases call with
  | send | armAway | armHome | disarm | panic | setAuxOutput => exact congrArg Option.toList h
  | _ => cases h

/-! ## Lines that are ready -/

/-- The lines that the task has ready to write. -/
def Task.lines : Task → List String
  | .refresh (.updating branches) => (List.range branches.length).map Client.branchLine
  | .call _ (.sending line _) => [line]
  | .call _ (.requesting _ _ _ line _) => [line]
  | .call _ (.updating branches) => (List.range branches.length).map Client.branchLine
  | _ => []

theorem Task.lines_of_isIdle {task : Task} (h : task.isIdle = true) : task.lines = [] := by
  rcases eq_of_isIdle h with (rfl | rfl | ⟨asked, rfl⟩) | ⟨role, rfl⟩ <;> rfl

namespace Client

variable {c d : Client} {strand : Strand} {task : Nat} {turn : Turn} {was now state : Task} {more : List Effect}
  {line command : String} {call : Call} {role : Role} {action : ClientAction}

/-- The branches of an update have the lines of its commands. -/
theorem owns_branchLine (hrole : role.commands = updateCommands)
    (hline : line ∈ (List.range freshBranches.length).map branchLine) : role.Owns line := by
  obtain ⟨branch, hbranch, rfl⟩ := List.mem_map.mp hline
  have hlt : branch < updateCommands.length := List.mem_range.mp hbranch
  have hshort : ∀ command ∈ updateCommands, Text.byteLength command.toList ≤ longestCommand := by decide +kernel
  have hmem : updateCommands.getD branch "" ∈ updateCommands := by
    rw [List.getD_eq_getElem?_getD, List.getElem?_eq_getElem hlt, Option.getD_some]
    exact List.getElem_mem hlt
  refine ⟨_, ?_, requestLine?_of_byteLength (hshort _ hmem)⟩
  rwa [hrole]

theorem UpdateMove.length_eq {branches rest : Branches} (h : UpdateMove strand c branches more (.place rest)) :
    rest.length = branches.length := by
  cases h with
  | goOn | done => exact List.length_set

/-! ## The first step of a call -/

theorem owns_beginSend {command : Except Error String} (hwas : c.tasks[task]? = some (.call call .fresh))
    (hcommand : ∀ text, command = .ok text → text ∈ call.commands)
    (hstate : (c.beginSend task call command).tasks[task]? = some state) (hline : line ∈ state.lines) :
    state.role.Owns line := by
  unfold beginSend at hstate
  split at hstate
  next ready hready =>
    have hreaches := reaches_setTask (.refl c) rfl hwas (.call call (.sending ready (.connecting .asking)))
    obtain rfl := Option.some.inj (hreaches.now_eq.symm.trans hstate)
    obtain rfl := List.mem_singleton.mp hline
    obtain ⟨text, htext, hok⟩ := bind_eq_ok_iff.mp hready
    exact ⟨text, hcommand text htext, hok⟩
  next e he =>
    have hreaches := reaches_finish (.refl c) rfl hwas (.call call) (.answered (.failed e))
    obtain rfl := Option.some.inj (hreaches.now_eq.symm.trans hstate)
    cases hline

theorem owns_beginAsk {patience : Duration} (hwas : c.tasks[task]? = some (.call call .fresh))
    (hcommand : (statusCode command).toOption.isSome = true → command ∈ call.commands)
    (hstate : (c.beginAsk task call command patience).tasks[task]? = some state) (hline : line ∈ state.lines) :
    state.role.Owns line := by
  cases hcode : statusCode command with
  | ok code =>
    rw [beginAsk_of_statusCode task patience c hcode] at hstate
    have hreaches := reaches_setTask (adds_shareSlot code c) (tasks_shareSlot code c) hwas
      (.call call (.requesting (c.shareSlot code).2 command patience (requestLine command) (.connecting .asking)))
    obtain rfl := Option.some.inj (hreaches.now_eq.symm.trans hstate)
    obtain rfl := List.mem_singleton.mp hline
    exact ⟨command, hcommand (by rw [hcode]; rfl), requestLine?_of_statusCode hcode⟩
  | error e =>
    simp only [beginAsk, hcode] at hstate
    have hreaches := reaches_finish (.refl c) rfl hwas (.call call) (.answered (.failed e))
    obtain rfl := Option.some.inj (hreaches.now_eq.symm.trans hstate)
    cases hline

/-- What a call has ready after its first step is a line of its own. -/
theorem owns_beginCall (hwas : c.tasks[task]? = some (.call call .fresh))
    (hstate : (c.beginCall task call).tasks[task]? = some state) (hline : line ∈ state.lines) :
    state.role.Owns line := by
  obtain ⟨first, hfirst, hreaches⟩ := firstMove_beginCall hwas
  cases call with
  | send | armAway | armHome | disarm | panic =>
    refine owns_beginSend hwas (fun text htext => ?_) hstate hline
    cases htext
    exact List.mem_singleton_self _
  | setAuxOutput number on =>
    refine owns_beginSend hwas (fun text htext => ?_) hstate hline
    have htext : (Call.setAuxOutput number on).command? = some text := toOption_eq_some_iff.mpr htext
    rw [Call.commands_of_command? htext]
    exact List.mem_singleton_self text
  | ask command patience =>
    refine owns_beginAsk hwas (fun hasks => ?_) hstate hline
    rw [Call.commands, if_pos hasks]
    exact List.mem_singleton_self command
  | refreshAuxOutputs => exact owns_beginAsk hwas (fun _ => List.mem_singleton_self _) hstate hline
  | panelInfo =>
    simp only [beginCall] at hstate
    split at hstate
    next info _ =>
      have hknown := reaches_finish (.refl c) rfl hwas (.call .panelInfo) (.answered (.panel info))
      obtain rfl := Option.some.inj (hknown.now_eq.symm.trans hstate)
      cases hline
    next => exact owns_beginAsk hwas (fun _ => List.mem_singleton_self _) hstate hline
  | connect =>
    have hconnect := reaches_setTask (.refl c) rfl hwas (.call .connect (.connecting .asking))
    obtain rfl := Option.some.inj (hconnect.now_eq.symm.trans hstate)
    cases hline
  | update =>
    have hupdate := reaches_setTask (.refl c) rfl hwas (.call .update (.updating freshBranches))
    obtain rfl := Option.some.inj (hupdate.now_eq.symm.trans hstate)
    exact owns_branchLine rfl hline
  | start | keepalive | close | zone =>
    -- These calls do not need the link.
    obtain rfl := Option.some.inj (hreaches.now_eq.symm.trans hstate)
    cases hfirst with
    | send _ hlink | ask _ _ _ _ hlink => cases hlink
    | _ => cases hline

/-! ## Steps -/

/-- A strand that sends writes no line but its own. -/
theorem SendMove.eq_of_mem {place : SendPlace} {next : Next SendPlace (Except Error Unit)} {ready : String}
    (h : SendMove strand ready c place more next) (hline : line ∈ linesBy strand.task more) : line = ready := by
  rw [h.writes] at hline
  unfold written at hline
  split at hline
  next => exact List.mem_singleton.mp hline
  all_goals cases hline

theorem UpdateMove.mem_lines {branches : Branches} {next : Next Branches (Except Error Unit)}
    (h : UpdateMove strand c branches more next) (hline : line ∈ linesBy strand.task more) :
    line ∈ (List.range branches.length).map branchLine := by
  have hmem {place : SendPlace} {after : Next SendPlace (Except Error Unit)}
      (hbranch : branches[strand.branch]? = some (some place))
      (hmove : SendMove strand (branchLine strand.branch) c place more after) :
      line ∈ (List.range branches.length).map branchLine := by
    rw [hmove.eq_of_mem hline]
    exact List.mem_map_of_mem (List.mem_range.mpr (List.getElem?_eq_some_iff.mp hbranch).1)
  cases h with
  | goOn hbranch hmove => exact hmem hbranch hmove
  | done hbranch hmove => exact hmem hbranch hmove
  | last hbranch hmove => exact hmem hbranch hmove
  | fail hbranch hmove => exact hmem hbranch hmove
  | die hbranch hmove => exact hmem hbranch hmove

/-- What a step writes for its task was ready. -/
theorem Move.mem_lines (h : Move strand c d was more now) (hline : line ∈ linesBy strand.task more) :
    line ∈ was.lines := by
  cases h with
  | receive hmove =>
    rw [hmove.silent] at hline
    cases hline
  | refresh hmove =>
    cases hmove with
    | updating hmove | rest _ hmove | die hmove => exact hmove.mem_lines hline
    | begin | stop | update | cutOff => cases hline
  | call hmove =>
    cases hmove with
    | sending hmove | sent hmove | sendingDies hmove | requesting hmove | requested _ hmove | requestFails hmove
    | requestDies hmove => exact List.mem_singleton.mpr (hmove.eq_of_mem hline)
    | updating hmove | updated hmove | updateDies hmove => exact hmove.mem_lines hline
    | connecting hmove | connected hmove | connectingDies hmove =>
      rw [hmove.silent] at hline
      cases hline
    | _ => cases hline

/-- After its first step a task makes no other lines ready, but for the refresh task, which begins its updates. -/
theorem Move.ready_cases (h : Move strand c d was more now) (hline : line ∈ now.lines) :
    (∃ call, was = .call call .fresh) ∨ was.role = now.role ∧ line ∈ was.lines ∨
      now = .refresh (.updating freshBranches) := by
  cases h with
  | receive hmove =>
    cases hmove with
    | _ => cases hline
  | refresh hmove =>
    cases hmove with
    | update => exact .inr (.inr rfl)
    | updating hmove =>
      rw [Task.lines, hmove.length_eq] at hline
      exact .inr (.inl ⟨rfl, hline⟩)
    | _ => cases hline
  | call hmove =>
    cases hmove with
    | begin => exact .inl ⟨_, rfl⟩
    | sending | requesting => exact .inr (.inl ⟨rfl, hline⟩)
    | updating hmove =>
      rw [Task.lines, hmove.length_eq] at hline
      exact .inr (.inl ⟨rfl, hline⟩)
    | _ => cases hline

/-! ## Histories -/

/-- What is ready and what has been written belongs to the tasks. -/
structure LinesOwned (c : Client) : Prop where
  ready : ∀ (task : Nat) (state : Task), c.tasks[task]? = some state →
    ∀ line ∈ state.lines, state.role.Owns line
  wrote : ∀ (task : Nat), ∀ line ∈ c.writesBy task, ∃ role, c.roleAt task = some role ∧ role.Owns line

theorem linesOwned_new (settings : ClientSettings) (handlers : Handlers) (link : Link) :
    LinesOwned (new settings handlers link) where
  ready _ _ := nofun
  wrote _ _ := nofun

theorem LinesOwned.ready_perform? (hc : LinesOwned c) (h : c.perform? action = some d)
    (hstate : d.tasks[task]? = some state) (hline : line ∈ state.lines) : state.role.Owns line := by
  rcases task_perform?_cases h hstate with hsame | ⟨hidle, -⟩ | ⟨strand, turn, was, more, rfl, rfl, hwas, hmove⟩
  · exact hc.ready task state hsame line hline
  · rw [Task.lines_of_isIdle hidle] at hline
    cases hline
  · rcases hmove.ready_cases hline with ⟨call, rfl⟩ | ⟨hrole, hbefore⟩ | rfl
    · obtain rfl := eq_beginCall_of_go? h hwas
      exact owns_beginCall hwas hstate hline
    · exact hrole ▸ hc.ready _ was hwas line hbefore
    · exact owns_branchLine rfl hline

theorem LinesOwned.wrote_perform? (hc : LinesOwned c) (hknown : c.HandlesKnown) (h : c.perform? action = some d)
    (hline : line ∈ d.writesBy task) : ∃ role, d.roleAt task = some role ∧ role.Owns line := by
  have hbefore (hold : line ∈ c.writesBy task) : ∃ role, d.roleAt task = some role ∧ role.Owns line := by
    obtain ⟨role, hrole, howns⟩ := hc.wrote task line hold
    exact ⟨role, roleAt_perform? h hknown hrole, howns⟩
  rcases move_of_perform? h with hadds | ⟨strand, turn, was, more, now, rfl, hwas, hmove, hreaches⟩
  · rw [hadds.writesBy_of_silent rfl] at hline
    exact hbefore hline
  · rw [hreaches.adds.writesBy_eq] at hline
    rcases List.mem_append.mp hline with hold | hnew
    · exact hbefore hold
    · by_cases hown : strand.task = task
      · subst hown
        refine ⟨was.role, roleAt_perform? h hknown (by rw [roleAt, hwas]; rfl), ?_⟩
        exact hc.ready _ was hwas line (hmove.mem_lines hnew)
      · rw [hmove.silent hown] at hnew
        cases hnew

theorem LinesOwned.perform? (hc : LinesOwned c) (hknown : c.HandlesKnown) (h : c.perform? action = some d) :
    LinesOwned d where
  ready _ _ hstate _ := hc.ready_perform? h hstate
  wrote _ _ := hc.wrote_perform? hknown h

/-- Whatever has happened to a new client, each line that it has written for a task carries a command that the task
is there to send. -/
theorem owns_of_mem_writesBy {settings : ClientSettings} {handlers : Handlers} {link : Link}
    {actions : List ClientAction} (h : (new settings handlers link).performAll? actions = some c)
    (hline : line ∈ c.writesBy task) : ∃ role, c.roleAt task = some role ∧ role.Owns line :=
  have howned : LinesOwned c :=
    performAll?_new_induction h (linesOwned_new settings handlers link)
      fun _ _ _ howned hknown hstep => howned.perform? hknown hstep
  howned.wrote task line hline

end Client

end AlarmPanel
