import Mathlib.Data.List.Nodup
import Mathlib.Data.List.Perm.Subperm
import AlarmPanel.Proofs.Client.Lines

/-!
# How often a line is written

A task that sends has lines left to write, and whatever it writes comes off them: what a call has written and what it
has left are together the lines of its commands, until it fails or dies (`Client.accounts_of_call`). So no call writes
a line twice, and a call that is answered as done has written each of its lines once. The refresh task has the lines of
an update left each time that it begins one, and writes no more than these (`Client.atMost_of_refresh`).
-/

namespace AlarmPanel

/-! ## Calls that only send a command -/

/-- The calls that only send a command. -/
def Call.sendsCommand : Call → Bool
  | .send _ | .armAway _ | .armHome _ | .disarm _ | .panic _ | .setAuxOutput _ _ => true
  | _ => false

/-- There is no command only for an output that is not there. -/
theorem exists_refused_of_command? {call : Call} (hcall : call.sendsCommand = true) (h : call.command? = none) :
    ∃ number on e, call = .setAuxOutput number on ∧ switchCommand number on = .error e := by
  cases call with
  | setAuxOutput number on =>
    cases hswitch : switchCommand number on with
    | ok command =>
      rw [Call.command?, hswitch] at h
      cases h
    | error e => exact ⟨number, on, e, rfl, hswitch⟩
  | send | armAway | armHome | disarm | panic => cases h
  | _ => cases hcall

/-! ## Lines that are left -/

namespace Branches

variable {branches : Branches} {branch : Nat} {place : SendPlace}

/-- The branches that are not through. -/
def pending (branches : Branches) : List Nat :=
  (List.range branches.length).filter fun branch => branches[branch]?.join.isSome

/-- The lines of the branches that are not through. -/
def unsent (branches : Branches) : List String := branches.pending.map Client.branchLine

theorem mem_pending : branch ∈ branches.pending ↔ ∃ place, branches[branch]? = some (some place) := by
  rw [pending, List.mem_filter, List.mem_range, Option.isSome_iff_exists]
  constructor
  · rintro ⟨-, place, hplace⟩
    exact ⟨place, Option.join_eq_some_iff.mp hplace⟩
  · rintro ⟨place, hplace⟩
    exact ⟨(List.getElem?_eq_some_iff.mp hplace).1, place, Option.join_eq_some_iff.mpr hplace⟩

theorem nodup_pending (branches : Branches) : branches.pending.Nodup := List.nodup_range.filter _

/-- A branch that goes on is still not through. -/
theorem pending_goOn (h : branches[branch]? = some (some place)) (next : SendPlace) :
    (Branches.pending (branches.set branch (some next))).Perm branches.pending := by
  refine (List.perm_ext_iff_of_nodup (nodup_pending _) (nodup_pending _)).mpr fun other => ?_
  rw [mem_pending, mem_pending]
  by_cases hsame : branch = other
  · subst hsame
    rw [List.getElem?_set_self (List.getElem?_eq_some_iff.mp h).1]
    exact ⟨fun _ => ⟨place, h⟩, fun _ => ⟨next, rfl⟩⟩
  · rw [List.getElem?_set_ne hsame]

/-- A branch that is through is no longer among the others. -/
theorem pending_done (h : branches[branch]? = some (some place)) :
    (branch :: Branches.pending (branches.set branch none)).Perm branches.pending := by
  have hthrough : branch ∉ Branches.pending (branches.set branch none) := by
    rw [mem_pending, List.getElem?_set_self (List.getElem?_eq_some_iff.mp h).1]
    rintro ⟨_, hthrough⟩
    cases hthrough
  refine (List.perm_ext_iff_of_nodup ((nodup_pending _).cons hthrough) (nodup_pending _)).mpr fun other => ?_
  rw [List.mem_cons]
  by_cases hsame : other = branch
  · subst hsame
    exact ⟨fun _ => mem_pending.mpr ⟨place, h⟩, fun _ => .inl rfl⟩
  · rw [mem_pending, mem_pending, List.getElem?_set_ne (Ne.symm hsame), or_iff_right hsame]

theorem pending_of_all_isNone (h : branches.all Option.isNone = true) : branches.pending = [] := by
  refine List.eq_nil_iff_forall_not_mem.mpr fun branch hmem => ?_
  obtain ⟨place, hplace⟩ := mem_pending.mp hmem
  cases List.all_eq_true.mp h _ (List.mem_of_getElem? hplace)

theorem unsent_freshBranches : Branches.unsent Client.freshBranches = updateCommands.map requestLine := rfl

end Branches

/-- The lines that the task has left to write. -/
def Task.unsent : Task → List String
  | .refresh (.updating branches) => branches.unsent
  | .call asked .fresh => asked.commands.map requestLine
  | .call _ (.sending line _) => [line]
  | .call _ (.requesting _ _ _ line _) => [line]
  | .call _ (.updating branches) => branches.unsent
  | _ => []

/-- The task goes on, or it has been answered as done. -/
def Task.InOrder : Task → Prop
  | .over _ (.answered .done) => True
  | .over _ _ => False
  | _ => True

/-- What has been written and what is left are together these lines, or at most these if the task is over without
having been done. -/
structure Accounts (written lines : List String) (now : Task) : Prop where
  atMost : List.Subperm (written ++ now.unsent) lines
  exact : now.InOrder → (written ++ now.unsent).Perm lines

namespace Accounts

variable {written lines : List String} {now : Task}

theorem of_perm (h : (written ++ now.unsent).Perm lines) : Accounts written lines now := ⟨h.subperm, fun _ => h⟩

/-- A task that is over and not done may have written nothing of what it had left. -/
theorem of_over {role : Role} {ending : Ending} (h : ¬(Task.over role ending).InOrder) :
    Accounts [] lines (.over role ending) where
  atMost := List.nil_subperm (l := lines)
  exact hdone := absurd hdone h

/-- A task that is done has nothing left. -/
theorem perm_of_done {role : Role} (h : Accounts written lines (.over role (.answered .done))) :
    written.Perm lines := by
  have hexact := h.exact trivial
  rwa [show (Task.over role (.answered .done)).unsent = [] from rfl, List.append_nil] at hexact

/-- What is written in a step comes off what was left before it. -/
theorem step {was : Task} {more : List String} (h : Accounts written lines was) (hwas : was.InOrder)
    (hstep : Accounts more was.unsent now) : Accounts (written ++ more) lines now where
  atMost := by
    rw [List.append_assoc]
    exact ((List.subperm_append_left written).mpr hstep.atMost).trans h.atMost
  exact hnow := by
    rw [List.append_assoc]
    exact ((hstep.exact hnow).append_left written).trans (h.exact hwas)

end Accounts

namespace Client

variable {c d : Client} {strand : Strand} {task : Nat} {turn : Turn} {was now state : Task} {more : List Effect}
  {line command : String} {call : Call} {role : Role} {action : ClientAction}

/-! ## Moves -/

/-- What a branch writes comes off what the update has left. -/
theorem UpdateMove.perm_of_place {branches rest : Branches} (h : UpdateMove strand c branches more (.place rest)) :
    (linesBy strand.task more ++ rest.unsent).Perm branches.unsent := by
  cases h with
  | goOn hbranch hmove =>
    rw [hmove.writes]
    exact (Branches.pending_goOn hbranch _).map branchLine
  | done hbranch hmove =>
    rw [hmove.writes]
    exact (Branches.pending_done hbranch).map branchLine

/-- The last branch writes the last line. -/
theorem UpdateMove.perm_of_ok {branches : Branches} (h : UpdateMove strand c branches more (.result (.ok ()))) :
    (linesBy strand.task more).Perm branches.unsent := by
  cases h with
  | last hbranch hmove hlast =>
    have hall := Branches.pending_done hbranch
    rw [Branches.pending_of_all_isNone hlast] at hall
    rw [hmove.writes]
    exact hall.map branchLine

theorem UpdateMove.writes_of_error {branches : Branches} {e : Error}
    (h : UpdateMove strand c branches more (.result (.error e))) : linesBy strand.task more = [] := by
  cases h with
  | fail _ hmove => exact hmove.writes

theorem UpdateMove.writes_of_dies {branches : Branches} (h : UpdateMove strand c branches more .dies) :
    linesBy strand.task more = [] := by
  cases h with
  | die _ hmove => exact hmove.writes

/-- After its first step, what a call writes comes off what it has left. -/
theorem CallMove.accounts {place : CallPlace} (h : CallMove strand c d call place more now) (hplace : place ≠ .fresh) :
    Accounts (linesBy strand.task more) (Task.call call place).unsent now := by
  -- Where a call fails or dies, it has written nothing in the step.
  have hover {ending : Ending} (hnone : linesBy strand.task more = [])
      (hending : ¬(Task.over (.call call) ending).InOrder) :
      Accounts (linesBy strand.task more) (Task.call call place).unsent (.over (.call call) ending) := by
    rw [hnone]
    exact .of_over hending
  cases h with
  | begin => exact absurd rfl hplace
  | connecting hmove =>
    rw [hmove.silent]
    exact .of_perm .rfl
  | @connected _ place more result hmove =>
    rw [hmove.silent]
    cases result with
    | ok => exact .of_perm .rfl
    | error e => exact .of_over id
  | connectingDies hmove => exact hover (hmove.silent _) id
  | sending hmove | requesting hmove =>
    rw [hmove.writes]
    exact .of_perm .rfl
  | requested deadline hmove =>
    rw [hmove.writes]
    exact .of_perm (.of_eq rfl)
  | @sent _ line place more result hmove =>
    cases result with
    | ok =>
      rw [hmove.writes]
      exact .of_perm (.of_eq rfl)
    | error e => exact hover hmove.writes id
  | requestFails hmove => exact hover hmove.writes id
  | sendingDies hmove | requestDies hmove => exact hover hmove.writes id
  | updating hmove => exact .of_perm hmove.perm_of_place
  | @updated _ branches more result hmove =>
    cases result with
    | ok => exact .of_perm ((List.append_nil _).symm ▸ hmove.perm_of_ok)
    | error e => exact hover hmove.writes_of_error id
  | updateDies hmove => exact hover hmove.writes_of_dies id
  | awaited answer => exact .of_perm .rfl
  | _ => exact .of_perm .rfl

/-! ## Calls -/

/-- A call has one command at most, but for an update. -/
theorem commands_eq_of_mem (hcommand : command ∈ call.commands) (hcall : call ≠ .update) :
    call.commands = [command] := by
  cases call with
  | ask text patience =>
    rw [Call.commands] at hcommand ⊢
    split at hcommand
    next hcode =>
      rw [if_pos hcode, List.mem_singleton.mp hcommand]
    next => cases hcommand
  | update => exact absurd rfl hcall
  | panelInfo | refreshAuxOutputs => exact congrArg ([·]) (List.mem_singleton.mp hcommand).symm
  | _ =>
    simp only [Call.commands, Option.mem_toList] at hcommand ⊢
    rw [Option.mem_def.mp hcommand]
    rfl

/-- A line that is the only one of a call. -/
theorem lines_eq_of_owns (howns : (Role.call call).Owns line) (hcall : call ≠ .update) :
    call.commands.map requestLine = [line] := by
  obtain ⟨command, hcommand, hline⟩ := howns
  rw [commands_eq_of_mem hcommand hcall, eq_requestLine_of_requestLine? hline]
  rfl

/-- The first step of a call gets ready all that the call is to write, or the call is over. -/
theorem accounts_beginCall (hwas : c.tasks[task]? = some (.call call .fresh))
    (hstate : (c.beginCall task call).tasks[task]? = some state) :
    Accounts [] (call.commands.map requestLine) state := by
  by_cases hupdate : call = .update
  · subst hupdate
    have hreaches := reaches_setTask (.refl c) rfl hwas (.call .update (.updating freshBranches))
    obtain rfl := Option.some.inj (hreaches.now_eq.symm.trans hstate)
    exact .of_perm (.of_eq Branches.unsent_freshBranches)
  · obtain ⟨first, hfirst, hreaches⟩ := firstMove_beginCall hwas
    obtain rfl := Option.some.inj (hreaches.now_eq.symm.trans hstate)
    cases hfirst with
    | send line =>
      rw [lines_eq_of_owns (owns_beginCall hwas hstate (List.mem_singleton_self line)) hupdate]
      exact .of_perm .rfl
    | ask slot command patience line =>
      rw [lines_eq_of_owns (owns_beginCall hwas hstate (List.mem_singleton_self line)) hupdate]
      exact .of_perm .rfl
    | launch handles hcall =>
      rcases hcall with rfl | rfl <;> exact .of_perm .rfl
    | refuse | known | zone => exact .of_over id
    | update => exact absurd rfl hupdate
    | _ => exact .of_perm .rfl

/-- After every history a call has written of its lines what it has not left. -/
theorem accounts_of_call {settings : ClientSettings} {handlers : Handlers} {link : Link}
    {history : List ClientAction} (h : (new settings handlers link).performAll? history = some c)
    (hstate : c.tasks[task]? = some state) (hcall : state.role = .call call) :
    Accounts (c.writesBy task) (call.commands.map requestLine) state := by
  refine call_writes_induction (P := fun lines now => Accounts lines (call.commands.map requestLine) now) h
    (.of_perm .rfl) ?_ hstate hcall
  intro strand turn c d was now hgo hwas hrole haccounts hnow
  obtain ⟨more, hmove, hreaches⟩ := move_of_go?_of_tasks hgo hwas hnow
  rw [hreaches.adds.writesBy_eq]
  cases hmove with
  | receive => cases hrole
  | refresh => cases hrole
  | @call asked place more now hmove =>
    cases hrole
    refine haccounts.step trivial ?_
    by_cases hplace : place = .fresh
    · subst hplace
      obtain rfl := eq_beginCall_of_go? hgo hwas
      cases hmove with
      | begin => exact accounts_beginCall hwas hnow
    · exact hmove.accounts hplace

/-! ## Updates of the refresh task -/

/-- The lines of so many updates. -/
def updateLines (count : Nat) : List String := (List.replicate count (updateCommands.map requestLine)).flatten

theorem updateLines_add (m n : Nat) : updateLines (m + n) = updateLines m ++ updateLines n := by
  rw [updateLines, List.replicate_add, List.flatten_append]
  rfl

/-- The lines that a task has left to write. -/
def unsentBy (task : Nat) (c : Client) : List String := (c.tasks[task]?).elim [] Task.unsent

/-- How many updates the refresh task begins on its way from the client `c` to `d`. -/
def updatesBegunTo (task : Nat) (c d : Client) : Nat :=
  match c.tasks[task]?, d.tasks[task]? with
  | some (.refresh (.resting _)), some (.refresh (.updating _)) => 1
  | _, _ => 0

/-- How many updates the refresh task begins in a history. -/
def updatesBegun (task : Nat) : List ClientAction → Client → Nat
  | [], _ => 0
  | action :: rest, c =>
    match c.perform? action with
    | some d => c.updatesBegunTo task d + d.updatesBegun task rest
    | none => 0

theorem unsentBy_of_task (h : c.tasks[task]? = some state) : c.unsentBy task = state.unsent := by
  rw [unsentBy, h]
  rfl

/-- What the refresh task writes comes off what it has left, unless it begins an update. -/
theorem RefreshMove.atMost {place : RefreshPlace} (h : RefreshMove strand c place more now) :
    List.Subperm (linesBy strand.task more ++ now.unsent) (Task.refresh place).unsent ∨
      ∃ wake, place = .resting wake ∧ more = [] ∧ now = .refresh (.updating freshBranches) := by
  cases h with
  | begin | stop | cutOff => exact .inl List.nil_subperm
  | @update wake => exact .inr ⟨wake, rfl, rfl, rfl⟩
  | updating hmove => exact .inl hmove.perm_of_place.subperm
  | @rest branches more result wake hmove =>
    refine .inl ?_
    cases result with
    | ok =>
      have hall := hmove.perm_of_ok
      rw [← List.append_nil (linesBy strand.task more)] at hall
      exact hall.subperm
    | error e =>
      rw [hmove.writes_of_error]
      exact List.nil_subperm
  | die hmove =>
    rw [hmove.writes_of_dies]
    exact .inl List.nil_subperm

theorem subperm_append_updateLines {fewer lines : List String} (h : List.Subperm fewer lines) (count : Nat) :
    List.Subperm fewer (lines ++ updateLines count) := h.trans (List.sublist_append_left lines _).subperm

/-- A step of the refresh task. -/
theorem atMost_of_go? (h : c.go? strand turn = some d) (hrole : c.roleAt strand.task = some .refresh) :
    ∃ lines, d.writesBy strand.task = c.writesBy strand.task ++ lines ∧
      List.Subperm (lines ++ d.unsentBy strand.task)
        (c.unsentBy strand.task ++ updateLines (c.updatesBegunTo strand.task d)) := by
  obtain ⟨was, more, now, hwas, hmove, hreaches⟩ := move_of_go? h
  refine ⟨linesBy strand.task more, hreaches.adds.writesBy_eq _, ?_⟩
  rw [unsentBy_of_task hwas, unsentBy_of_task hreaches.now_eq]
  rw [roleAt, hwas] at hrole
  cases hmove with
  | receive => cases hrole
  | call => cases hrole
  | refresh hmove =>
    rcases hmove.atMost with hless | ⟨wake, rfl, rfl, rfl⟩
    · exact subperm_append_updateLines hless _
    · have hbegun : c.updatesBegunTo strand.task d = 1 := by
        simp only [updatesBegunTo, hwas, hreaches.now_eq]
      rw [hbegun]
      exact List.Subperm.refl _

/-- What others do leaves the lines of the refresh task as they are, or ends the task. -/
theorem unsentBy_of_others (h : c.perform? action = some d) (hknown : c.HandlesKnown)
    (hrole : c.roleAt task = some .refresh)
    (hothers : ∀ strand turn, action = .go strand turn → strand.task ≠ task) :
    List.Subperm (d.unsentBy task) (c.unsentBy task) := by
  obtain ⟨state, hstate, hstill⟩ := Option.map_eq_some_iff.mp (roleAt_perform? h hknown hrole)
  rw [unsentBy_of_task hstate]
  rcases task_perform?_cases h hstate with hsame | ⟨hidle, -⟩ | ⟨strand, turn, -, -, haction, htask, -⟩
  · exact unsentBy_of_task hsame ▸ List.Subperm.refl _
  · rcases Task.eq_of_isIdle hidle with (rfl | rfl | ⟨asked, rfl⟩) | ⟨role, rfl⟩
    · cases hstill
    · exact List.nil_subperm
    · cases hstill
    · exact List.nil_subperm
  · exact absurd htask (hothers strand turn haction)

/-- Whatever happens: what the refresh task writes comes off what it has left, and off the lines of an update if it
begins one. -/
theorem atMost_of_perform? (h : c.perform? action = some d) (hknown : c.HandlesKnown)
    (hrole : c.roleAt task = some .refresh) :
    ∃ lines, d.writesBy task = c.writesBy task ++ lines ∧
      List.Subperm (lines ++ d.unsentBy task) (c.unsentBy task ++ updateLines (c.updatesBegunTo task d)) := by
  rcases action.own_or_other task with ⟨strand, turn, rfl, rfl⟩ | hothers
  · exact atMost_of_go? h hrole
  · refine ⟨[], by rw [writesBy_of_others h hothers, List.append_nil], ?_⟩
    exact subperm_append_updateLines (unsentBy_of_others h hknown hrole hothers) _

/-- In the course of a history the refresh task writes at most what it has left of its update, and the lines of each
update that it begins. -/
theorem atMost_of_refresh {history : List ClientAction} (h : c.performAll? history = some d) (hknown : c.HandlesKnown)
    (hrole : c.roleAt task = some .refresh) :
    ∃ lines, d.writesBy task = c.writesBy task ++ lines ∧
      List.Subperm (lines ++ d.unsentBy task) (c.unsentBy task ++ updateLines (c.updatesBegun task history)) := by
  induction history generalizing c with
  | nil =>
    obtain rfl := Option.some.inj h
    exact ⟨[], (List.append_nil _).symm, subperm_append_updateLines (List.Subperm.refl _) _⟩
  | cons action rest ih =>
    obtain ⟨e, hstep, hrest⟩ := Option.bind_eq_some_iff.mp h
    obtain ⟨first, hfirst, hmost⟩ := atMost_of_perform? hstep hknown hrole
    obtain ⟨second, hsecond, hrestMost⟩ :=
      ih hrest (handlesKnown_perform? hstep hknown) (roleAt_perform? hstep hknown hrole)
    have hbegun : c.updatesBegun task (action :: rest) = c.updatesBegunTo task e + e.updatesBegun task rest := by
      simp only [updatesBegun, hstep]
    refine ⟨first ++ second, by rw [hsecond, hfirst, List.append_assoc], ?_⟩
    rw [hbegun, updateLines_add, List.append_assoc, ← List.append_assoc (c.unsentBy task)]
    refine ((List.subperm_append_left first).mpr hrestMost).trans ?_
    rw [← List.append_assoc]
    exact (List.subperm_append_right _).mpr hmost

/-! ## Single commands -/

/-- A call that only sends a command has written its line, once, if it has been answered as done, and nothing else; a
call for which there is no command is never answered so. -/
theorem writesBy_of_sendsCommand {settings : ClientSettings} {handlers : Handlers} {link : Link}
    {history : List ClientAction} (h : (new settings handlers link).performAll? history = some c)
    (hrole : c.roleAt task = some (.call call)) (hcall : call.sendsCommand = true) :
    (c.tasks[task]? = some (.over (.call call) (.answered .done)) →
      ∃ command, call.command? = some command ∧ c.writesBy task = [requestLine command]) ∧
    (c.tasks[task]? ≠ some (.over (.call call) (.answered .done)) → c.writesBy task = []) := by
  obtain ⟨state, hstate, hcalled⟩ := Option.map_eq_some_iff.mp hrole
  cases hcommand : call.command? with
  | some command =>
    have hlines := (writesBy_of_call h hstate hcalled hcommand).lines_eq hcalled
    refine ⟨fun hdone => ⟨command, rfl, ?_⟩, fun hnot => ?_⟩
    · rw [hlines, if_pos (Option.some.inj (hstate.symm.trans hdone))]
    · rw [hlines, if_neg fun hdone => hnot (hstate.trans (congrArg some hdone))]
  | none =>
    obtain ⟨number, on, e, rfl, hrefused⟩ := exists_refused_of_command? hcall hcommand
    refine ⟨fun hdone => ?_, fun _ => ?_⟩
    · rcases beforeOrAfter_of_answeredAtOnce h (answeredAtOnce_of_refused hrefused) task _ hdone rfl with hnot | hnot
      · cases hnot
      · cases hnot
    · have hnone : (Call.setAuxOutput number on).commands = [] := congrArg Option.toList hcommand
      have hatMost := (accounts_of_call h hstate hcalled).atMost
      rw [hnone, List.map_nil, List.subperm_nil] at hatMost
      exact (List.append_eq_nil_iff.mp hatMost).1

/-! ## All that is written -/

/-- The lines of a call are different ones. -/
theorem nodup_lines (call : Call) : (call.commands.map requestLine).Nodup := by
  by_cases hupdate : call = .update
  · subst hupdate
    decide +kernel
  · cases hcommands : call.commands with
    | nil => exact List.nodup_nil
    | cons command rest =>
      rw [← hcommands, commands_eq_of_mem (hcommands ▸ List.mem_cons_self) hupdate]
      exact List.nodup_singleton _

/-- Whatever has happened to the link, to others and to the calls themselves: each command has been transmitted at most
once for the call that sends it, and just once if the call has been answered as done.

A call that only sends a command has written its line if it has been answered as done, and nothing if it has been
answered with an error or not at all. A call that has several lines, or that goes on to wait for an answer, has written
none of its lines twice, and all of them if it has been answered as done. The refresh task writes at most what it has
left of its update and the lines of the updates that it begins. And nothing is written but for one of these. -/
theorem transmitted_once {settings : ClientSettings} {handlers : Handlers} {link : Link}
    {history : List ClientAction} (h : (new settings handlers link).performAll? history = some c) :
    (∀ task call, c.roleAt task = some (.call call) → call.sendsCommand = true →
      (c.tasks[task]? = some (.over (.call call) (.answered .done)) →
        ∃ command, call.command? = some command ∧ c.writesBy task = [requestLine command]) ∧
      (c.tasks[task]? ≠ some (.over (.call call) (.answered .done)) → c.writesBy task = [])) ∧
    (∀ task call, c.roleAt task = some (.call call) →
      (c.writesBy task).Nodup ∧ (∀ line ∈ c.writesBy task, line ∈ call.commands.map requestLine) ∧
      (c.tasks[task]? = some (.over (.call call) (.answered .done)) →
        (c.writesBy task).Perm (call.commands.map requestLine))) ∧
    (∀ task later d, c.roleAt task = some .refresh → c.performAll? later = some d →
      ∃ lines, d.writesBy task = c.writesBy task ++ lines ∧
        List.Subperm lines (c.unsentBy task ++ updateLines (c.updatesBegun task later))) ∧
    ∀ strand line, .wrote strand line ∈ c.effects →
      ∃ role command, c.roleAt strand.task = some role ∧ role.Transmits command ∧ line = requestLine command := by
  refine ⟨fun task call => writesBy_of_sendsCommand h, fun task call hrole => ?_, fun task later d hrole hlater => ?_,
    fun strand line hwrote => ?_⟩
  · obtain ⟨state, hstate, hcall⟩ := Option.map_eq_some_iff.mp hrole
    have haccounts := accounts_of_call h hstate hcall
    have hatMost : List.Subperm (c.writesBy task) (call.commands.map requestLine) :=
      (List.sublist_append_left _ _).subperm.trans haccounts.atMost
    obtain ⟨lines, hsame, hsublist⟩ := hatMost
    refine ⟨hsame.nodup_iff.mp (hsublist.nodup (nodup_lines call)),
      fun line hline => hsublist.subset (hsame.mem_iff.mpr hline), fun hdone => ?_⟩
    obtain rfl := Option.some.inj (hstate.symm.trans hdone)
    exact haccounts.perm_of_done
  · obtain ⟨lines, hlines, hatMost⟩ := atMost_of_refresh hlater (handlesKnown_of_performAll? h) hrole
    exact ⟨lines, hlines, (List.sublist_append_left _ _).subperm.trans hatMost⟩
  · have hline : line ∈ c.writesBy strand.task := List.mem_filterMap.mpr ⟨_, hwrote, if_pos rfl⟩
    obtain ⟨role, hrole, command, hcommand, hready⟩ := owns_of_mem_writesBy h hline
    exact ⟨role, command, hrole, Role.transmits_of_mem hcommand, eq_requestLine_of_requestLine? hready⟩

/-- An update and a call to arm, while the first dial is refused and the second write fails: the update fails after one
of its lines, and the third branch is given up; the call to arm finds the link down, and is done all the same. -/
theorem transmitted_once_broken :
    let own (strands : List (Nat × Nat)) : List ClientAction :=
      strands.map fun strand => .go ⟨strand.1, strand.2⟩ .own
    let history : List ClientAction :=
      [.setRefusals 1, .call .update, .call (.armAway (some "1234"))] ++
        own [(0, 0), (0, 0), (0, 0), (0, 0), (0, 1), (0, 2), (1, 0), (1, 0)] ++ [.pass 100] ++
        own [(0, 0), (0, 0), (0, 0), (0, 0), (0, 0), (0, 1), (0, 1), (0, 1)] ++ [.setWriteFaults 1] ++
        own [(0, 1), (1, 0), (1, 0), (1, 0), (1, 0), (1, 0)]
    ∃ c, (new .default .none (.new false false false)).performAll? history = some c ∧
      c.tasks = [.over (.call .update) (.answered (.failed (.io "broken"))),
        .over (.call (.armAway (some "1234"))) (.answered .done)] ∧
      c.writesBy 0 = [requestLine "S00"] ∧ (c.writesBy 0).Nodup ∧
      ∃ command, (Call.armAway (some "1234")).command? = some command ∧ c.writesBy 1 = [requestLine command] := by
  intro own history
  have hrun : ((new .default .none (.new false false false)).performAll? history).any fun c =>
      c.tasks = [.over (.call .update) (.answered (.failed (.io "broken"))),
        .over (.call (.armAway (some "1234"))) (.answered .done)] ∧
      c.writesBy 0 = [requestLine "S00"] := by decide +kernel
  obtain ⟨c, hc, hrest⟩ := (Option.any_eq_true _ _).mp hrun
  obtain ⟨htasks, hfirst⟩ := of_decide_eq_true hrest
  obtain ⟨hcommands, hcalls, -, -⟩ := transmitted_once hc
  have hrole (task : Nat) : c.roleAt task = (c.tasks.map Task.role)[task]? := List.getElem?_map.symm
  have hupdate := hcalls 0 .update (by rw [hrole, htasks]; rfl)
  have harm := hcommands 1 (.armAway (some "1234")) (by rw [hrole, htasks]; rfl) rfl
  exact ⟨c, hc, htasks, hfirst, hupdate.1, harm.1 (by rw [htasks]; rfl)⟩

end Client

end AlarmPanel
