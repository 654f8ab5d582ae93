import AlarmPanel.Proofs.Client.Steps

/-!
# Only its own steps move a call

A task keeps its role for ever, and nobody ends it from outside but the background tasks: the handles that a
call takes when the client is closed are handles of background tasks in every state that the client can come
to. So a call stays where it is until it makes a step of its own, and when it is over it stays over.
-/

namespace AlarmPanel

/-- What happens is a step of the task, or it is not. -/
theorem ClientAction.own_or_other (action : ClientAction) (task : Nat) :
    (∃ strand turn, action = .go strand turn ∧ strand.task = task) ∨
      ∀ strand turn, action = .go strand turn → strand.task ≠ task := by
  by_cases hown : ∃ strand turn, action = .go strand turn ∧ strand.task = task
  · exact .inl hown
  · exact .inr fun strand turn haction htask => hown ⟨strand, turn, haction, htask⟩

namespace Client

/-- The role of the task with this number. -/
def roleAt (task : Nat) (c : Client) : Option Role := (c.tasks[task]?).map Task.role

/-- The handles are those of a receive task and of a refresh task. -/
def Knows (c : Client) (handles : Handles) : Prop :=
  c.roleAt handles.receive = some .receive ∧ c.roleAt handles.refresh = some .refresh

/-- The client has the handles, or one of its tasks has taken them. -/
def Keeps (c : Client) (handles : Handles) : Prop :=
  c.handles = some handles ∨ ∃ state ∈ c.tasks, state.handles? = some handles

/-- All handles that are about are those of background tasks. -/
def HandlesKnown (c : Client) : Prop := ∀ handles, c.Keeps handles → c.Knows handles

/-- The roles of the tasks are still what they were, and the calls are where they were. -/
structure LeavesCalls (c d : Client) : Prop where
  roles : ∀ (task : Nat) (role : Role), c.roleAt task = some role → d.roleAt task = some role
  calls : ∀ (task : Nat) (state : Task) (call : Call), c.tasks[task]? = some state →
    state.role = .call call → d.tasks[task]? = some state

variable {c d e : Client} {task : Nat} {was now state : Task}

theorem leavesCalls_of_tasks_eq (h : d.tasks = c.tasks) : LeavesCalls c d where
  roles _ _ hrole := by rwa [roleAt, h]
  calls _ _ _ hstate _ := by rwa [h]

/-- Tasks that are started leave the others alone. -/
theorem leavesCalls_of_append {more : List Task} (h : d.tasks = c.tasks ++ more) : LeavesCalls c d where
  roles task role hrole := by
    obtain ⟨state, hstate, rfl⟩ := Option.map_eq_some_iff.mp hrole
    rw [roleAt, h, List.getElem?_append_left (List.getElem?_eq_some_iff.mp hstate).1, hstate]
    rfl
  calls task state call hstate _ := by
    rwa [h, List.getElem?_append_left (List.getElem?_eq_some_iff.mp hstate).1]

theorem LeavesCalls.trans (hcd : LeavesCalls c d) (hde : LeavesCalls d e) : LeavesCalls c e where
  roles task role hrole := hde.roles task role (hcd.roles task role hrole)
  calls task state call hstate hcall :=
    hde.calls task state call (hcd.calls task state call hstate hcall) hcall

theorem LeavesCalls.knows (h : LeavesCalls c d) {handles : Handles} (hknows : c.Knows handles) :
    d.Knows handles :=
  ⟨h.roles _ _ hknows.1, h.roles _ _ hknows.2⟩

/-- Putting a task at another place of its role leaves all roles as they are. -/
theorem roleAt_setTask (hrole : c.roleAt task = some now.role) (other : Nat) :
    (c.setTask task now).roleAt other = c.roleAt other := by
  obtain ⟨was, hwas, hroles⟩ := Option.map_eq_some_iff.mp hrole
  unfold roleAt setTask
  dsimp only
  by_cases hother : task = other
  · subst hother
    rw [List.getElem?_set_self (List.getElem?_eq_some_iff.mp hwas).1, hwas, Option.map_some,
      Option.map_some, hroles]
  · rw [List.getElem?_set_ne hother]

theorem keeps_setTask {handles : Handles} (h : (c.setTask task now).Keeps handles) :
    c.Keeps handles ∨ now.handles? = some handles := by
  rcases h with hkept | ⟨state, hstate, htaken⟩
  · exact .inl (.inl hkept)
  · rcases List.mem_or_eq_of_mem_set hstate with hold | rfl
    · exact .inl (.inr ⟨state, hold, htaken⟩)
    · exact .inr htaken

/-! ## Ending a background task -/

theorem abort_eq (task : Nat) (c : Client) :
    c.abort task = c ∨ ∃ role, c.roleAt task = some role ∧ c.abort task = c.finish task role .aborted := by
  unfold abort
  split
  next state hstate =>
    split
    next => exact .inl rfl
    next =>
      refine .inr ⟨state.role, ?_, rfl⟩
      rw [roleAt, hstate]
      rfl
  next => exact .inl rfl

/-- Ending a task that is no call leaves the calls alone. -/
theorem leavesCalls_abort {role : Role} (hrole : c.roleAt task = some role)
    (hcall : ∀ call, role ≠ .call call) : LeavesCalls c (c.abort task) := by
  rcases c.abort_eq task with heq | ⟨role', hrole', heq⟩
  · rw [heq]
    exact leavesCalls_of_tasks_eq rfl
  · obtain rfl : role' = role := Option.some.inj (hrole'.symm.trans hrole)
    have hover : c.roleAt task = some (Task.over role' .aborted).role := hrole
    rw [heq]
    refine ⟨fun other role hother => ?_, fun other state call hstate hrole' => ?_⟩
    · rw [← hother]
      exact roleAt_setTask (c := c.withdraw task) hover other
    · have hne : task ≠ other := by
        rintro rfl
        rw [roleAt, hstate] at hrole
        exact hcall call ((Option.some.inj hrole).symm.trans hrole')
      show (c.tasks.set task _)[other]? = some state
      rwa [List.getElem?_set_ne hne]

theorem keeps_abort {handles : Handles} (h : (c.abort task).Keeps handles) : c.Keeps handles := by
  rcases c.abort_eq task with heq | ⟨role, -, heq⟩
  · rwa [heq] at h
  · rw [heq] at h
    have hset : ((c.withdraw task).setTask task (.over role .aborted)).Keeps handles := h
    rcases keeps_setTask hset with hkeeps | hnone
    · exact hkeeps
    · cases hnone

/-! ## Deeds -/

theorem tasks_receiveLine (bytes : List UInt8) (c : Client) : (c.receiveLine bytes).tasks = c.tasks := by
  have h := congrArg Ledger.tasks (ledger_receiveLine bytes c)
  cases hupdate : (eventOfBytes? bytes).bind Event.status? <;> simp only [hupdate] at h <;> exact h

theorem handles_receiveLine (bytes : List UInt8) (c : Client) :
    (c.receiveLine bytes).handles = c.handles := by
  have h := congrArg Ledger.handles (ledger_receiveLine bytes c)
  cases hupdate : (eventOfBytes? bytes).bind Event.status? <;> simp only [hupdate] at h <;> exact h

theorem tasks_shareSlot (code : UInt8) (c : Client) : (c.shareSlot code).1.tasks = c.tasks :=
  congrArg Ledger.tasks (ledger_shareSlot code c)

theorem handles_shareSlot (code : UInt8) (c : Client) : (c.shareSlot code).1.handles = c.handles :=
  congrArg Ledger.handles (ledger_shareSlot code c)

theorem Keeps.of_eq {handles : Handles} (htasks : d.tasks = c.tasks) (hhandles : d.handles = c.handles)
    (h : d.Keeps handles) : c.Keeps handles := by
  rwa [Keeps, htasks, hhandles] at h

/-- No deed moves a call. -/
theorem Deed.leavesCalls (hdeed : Deed c was now e) (hknown : c.HandlesKnown)
    (hwas : c.tasks[task]? = some was) : LeavesCalls c e := by
  cases hdeed with
  | nothing => exact leavesCalls_of_tasks_eq rfl
  | takeIn place bytes => exact leavesCalls_of_tasks_eq (tasks_receiveLine bytes c)
  | register => exact leavesCalls_of_tasks_eq (tasks_shareSlot ..)
  | launch => exact leavesCalls_of_append (List.append_assoc ..)
  | keep => exact leavesCalls_of_tasks_eq rfl
  | take => exact leavesCalls_of_tasks_eq rfl
  | @abort _ _ handles other hhandles hother =>
    have hknows := hknown handles (.inr ⟨was, List.mem_of_getElem? hwas, hhandles⟩)
    rcases hother with rfl | rfl
    · exact leavesCalls_abort hknows.2 (by simp)
    · exact leavesCalls_abort hknows.1 (by simp)

/-- The handles that are about after a deed were so before, or have just been made. -/
theorem Deed.keeps (hdeed : Deed c was now e) (hwas : c.tasks[task]? = some was) {handles : Handles}
    (h : e.Keeps handles ∨ now.handles? = some handles) : c.Keeps handles ∨ e.Knows handles := by
  have htaken {handles : Handles} (h : was.handles? = some handles) : c.Keeps handles :=
    .inr ⟨was, List.mem_of_getElem? hwas, h⟩
  have hnext {now : Task} (hnow : now.handles? = none ∨ now.handles? = was.handles?)
      (h : now.handles? = some handles) : c.Keeps handles := by
    rcases hnow with hnone | hsame
    · rw [hnone] at h
      cases h
    · exact htaken (hsame.symm.trans h)
  cases hdeed with
  | nothing hnow => exact .inl (h.elim id (hnext hnow))
  | takeIn place bytes hnow =>
    exact .inl (h.elim (.of_eq (tasks_receiveLine bytes c) (handles_receiveLine bytes c))
      (hnext (.inl hnow)))
  | @register command code call patience line hcode =>
    exact .inl (h.elim (.of_eq (tasks_shareSlot code c) (handles_shareSlot code c))
      (hnext (.inl rfl)))
  | launch call =>
    rcases h with (hkept | ⟨state, hstate, htaken⟩) | hnow
    · exact .inl (.inl hkept)
    · have hmem : state ∈ c.tasks ++ [.receive .fresh] ++ [.refresh .fresh] := hstate
      simp only [List.mem_append, List.mem_singleton, or_assoc] at hmem
      rcases hmem with hold | rfl | rfl
      · exact .inl (.inr ⟨state, hold, htaken⟩)
      · cases htaken
      · cases htaken
    · -- These handles are new: the tasks behind them are the two that have just been started.
      cases hnow
      exact .inr ⟨by simp [roleAt, addTask, Task.role], by simp [roleAt, addTask, Task.role]⟩
  | keep call kept hnow =>
    rcases h with (hkept | hold) | htaken
    · cases hkept
      exact .inl (htaken rfl)
    · exact .inl (.inr hold)
    · exact .inl (hnext (.inl hnow) htaken)
  | take hhandles hnow =>
    rcases h with (hkept | hold) | htaken
    · cases hkept
    · exact .inl (.inr hold)
    · exact .inl (.inl (hhandles.trans (hnow.symm.trans htaken)))
  | abort other hhandles hother hnow => exact .inl (h.elim keeps_abort (hnext hnow))

/-! ## Steps -/

theorem roleAt_of_ledger (h : d.ledger = c.ledger) (task : Nat) : d.roleAt task = c.roleAt task := by
  rw [roleAt, roleAt, tasks_eq_of_ledger h]

/-- A step of a task leaves all calls alone but its own. -/
theorem Stride.calls_eq (h : Stride task was c d) (hknown : c.HandlesKnown)
    (hwas : c.tasks[task]? = some was) {other : Nat} {call : Call} (hne : task ≠ other)
    (hstate : c.tasks[other]? = some state) (hcall : state.role = .call call) :
    d.tasks[other]? = some state := by
  obtain ⟨now, e, hdeed, -, hd⟩ := h
  have he := (hdeed.leavesCalls hknown hwas).calls other state call hstate hcall
  rw [tasks_eq_of_ledger hd]
  show (e.tasks.set task now)[other]? = some state
  rwa [List.getElem?_set_ne hne]

/-- Beside its deed a step changes no role. -/
theorem Deed.roleAt_setTask (hdeed : Deed c was now e) (hknown : c.HandlesKnown)
    (hwas : c.tasks[task]? = some was) (hnow : now.role = was.role) (other : Nat) :
    (e.setTask task now).roleAt other = e.roleAt other := by
  refine Client.roleAt_setTask ?_ other
  refine (hdeed.leavesCalls hknown hwas).roles task now.role ?_
  rw [roleAt, hwas, hnow]
  rfl

theorem Stride.handlesKnown (h : Stride task was c d) (hknown : c.HandlesKnown)
    (hwas : c.tasks[task]? = some was) : d.HandlesKnown := by
  intro handles hkeeps
  obtain ⟨now, e, hdeed, hnow, hd⟩ := h
  have hset : (e.setTask task now).Keeps handles :=
    .of_eq (tasks_eq_of_ledger hd) (congrArg Ledger.handles hd) hkeeps
  have hknows : e.Knows handles := by
    rcases hdeed.keeps hwas (keeps_setTask hset) with hc | he
    · exact (hdeed.leavesCalls hknown hwas).knows (hknown handles hc)
    · exact he
  have hroles (other : Nat) : d.roleAt other = e.roleAt other := by
    rw [roleAt_of_ledger hd, hdeed.roleAt_setTask hknown hwas hnow]
  rw [Knows, hroles, hroles]
  exact hknows

/-! ## Histories -/

theorem handlesKnown_new (settings : ClientSettings) (handlers : Handlers) (link : Link) :
    (new settings handlers link).HandlesKnown := by
  rintro handles (hkept | ⟨state, hstate, -⟩)
  · cases hkept
  · cases hstate

theorem handlesKnown_perform? {action : ClientAction} (h : c.perform? action = some d)
    (hknown : c.HandlesKnown) : d.HandlesKnown := by
  rcases perform?_cases h with ⟨strand, turn, -, hgo⟩ | ⟨call, rfl⟩ | hledger
  · obtain ⟨was, hwas, -, hstride⟩ := stride_of_go? hgo
    exact hstride.handlesKnown hknown hwas
  · intro handles hkeeps
    refine (leavesCalls_of_append rfl).knows (hknown handles ?_)
    rcases hkeeps with hkept | ⟨state, hstate, htaken⟩
    · exact .inl hkept
    · rcases List.mem_append.mp hstate with hold | hnew
      · exact .inr ⟨state, hold, htaken⟩
      · cases List.mem_singleton.mp hnew
        cases htaken
  · intro handles hkeeps
    have hknows := hknown handles
      (.of_eq (tasks_eq_of_ledger hledger) (congrArg Ledger.handles hledger) hkeeps)
    rwa [Knows, roleAt_of_ledger hledger, roleAt_of_ledger hledger]

theorem handlesKnown_of_performAll? {settings : ClientSettings} {handlers : Handlers} {link : Link}
    {actions : List ClientAction} (h : (new settings handlers link).performAll? actions = some c) : c.HandlesKnown :=
  performAll?_induction (fun _ _ _ hknown hstep => handlesKnown_perform? hstep hknown) h
    (handlesKnown_new settings handlers link)

/-- A property of a new client that every step keeps, while the handles are known, holds after each history. -/
theorem performAll?_new_induction {P : Client → Prop} {settings : ClientSettings} {handlers : Handlers} {link : Link}
    {actions : List ClientAction} (h : (new settings handlers link).performAll? actions = some c)
    (hnew : P (new settings handlers link))
    (hstep : ∀ action c d, P c → c.HandlesKnown → c.perform? action = some d → P d) : P c := by
  have hboth : P c ∧ c.HandlesKnown := by
    refine performAll?_induction (P := fun c => P c ∧ c.HandlesKnown) ?_ h
      ⟨hnew, handlesKnown_new settings handlers link⟩
    rintro action c d ⟨hc, hknown⟩ hd
    exact ⟨hstep action c d hc hknown hd, handlesKnown_perform? hd hknown⟩
  exact hboth.1

/-- What happens leaves every call alone but the one whose step it is. -/
theorem calls_perform? {action : ClientAction} {call : Call} (h : c.perform? action = some d)
    (hknown : c.HandlesKnown) (hstate : c.tasks[task]? = some state) (hcall : state.role = .call call)
    (hother : ∀ strand turn, action = .go strand turn → strand.task ≠ task) :
    d.tasks[task]? = some state := by
  rcases perform?_cases h with ⟨strand, turn, hgo, hstep⟩ | ⟨new, rfl⟩ | hledger
  · obtain ⟨was, hwas, -, hstride⟩ := stride_of_go? hstep
    exact hstride.calls_eq hknown hwas (hother strand turn hgo) hstate hcall
  · exact (leavesCalls_of_append rfl).calls task state call hstate hcall
  · rwa [tasks_eq_of_ledger hledger]

/-- A call that is over stays over. -/
theorem over_perform? {action : ClientAction} {call : Call} {ending : Ending}
    (h : c.perform? action = some d) (hknown : c.HandlesKnown)
    (hstate : c.tasks[task]? = some (.over (.call call) ending)) :
    d.tasks[task]? = some (.over (.call call) ending) := by
  refine calls_perform? h hknown hstate rfl ?_
  -- A task that is over makes no step, so the step is another one's.
  rintro strand turn rfl rfl
  obtain ⟨was, hwas, hover, -⟩ := stride_of_go? h
  obtain rfl := Option.some.inj (hwas.symm.trans hstate)
  cases hover

/-! ## What is over, and where calls come from -/

theorem ended_abort {role : Role} {ending : Ending} (h : c.tasks[task]? = some (.over role ending))
    (other : Nat) : (c.abort other).tasks[task]? = some (.over role ending) := by
  unfold abort
  split
  next state hstate =>
    split
    next => exact h
    next hover =>
      have hne : other ≠ task := by
        rintro rfl
        obtain rfl := Option.some.inj (hstate.symm.trans h)
        exact hover rfl
      show (c.tasks.set other _)[task]? = _
      rwa [List.getElem?_set_ne hne]
  next => exact h

theorem Deed.ended (hdeed : Deed c was now e) {role : Role} {ending : Ending}
    (h : c.tasks[task]? = some (.over role ending)) : e.tasks[task]? = some (.over role ending) := by
  cases hdeed with
  | nothing | keep | take => exact h
  | takeIn place bytes => rwa [tasks_receiveLine]
  | register => rwa [tasks_shareSlot]
  | launch =>
    show (c.tasks ++ [_] ++ [_])[task]? = _
    rwa [List.append_assoc, List.getElem?_append_left (List.getElem?_eq_some_iff.mp h).1]
  | abort other => exact ended_abort h other

/-- What is over stays over. -/
theorem ended_perform? {action : ClientAction} {role : Role} {ending : Ending}
    (h : c.perform? action = some d) (hstate : c.tasks[task]? = some (.over role ending)) :
    d.tasks[task]? = some (.over role ending) := by
  rcases perform?_cases h with ⟨strand, turn, -, hgo⟩ | ⟨call, rfl⟩ | hledger
  · obtain ⟨was, hwas, hover, now, e, hdeed, -, hd⟩ := stride_of_go? hgo
    have hne : strand.task ≠ task := by
      intro heq
      rw [heq, hstate] at hwas
      obtain rfl := Option.some.inj hwas
      cases hover
    rw [tasks_eq_of_ledger hd]
    show (e.tasks.set strand.task now)[task]? = _
    rw [List.getElem?_set_ne hne]
    exact hdeed.ended hstate
  · show (c.tasks ++ [_])[task]? = _
    rwa [List.getElem?_append_left (List.getElem?_eq_some_iff.mp hstate).1]
  · rwa [tasks_eq_of_ledger hledger]

/-- A task keeps its role. -/
theorem roleAt_perform? {action : ClientAction} {role : Role} (h : c.perform? action = some d)
    (hknown : c.HandlesKnown) (hrole : c.roleAt task = some role) : d.roleAt task = some role := by
  rcases perform?_cases h with ⟨strand, turn, -, hgo⟩ | ⟨call, rfl⟩ | hledger
  · obtain ⟨was, hwas, -, now, e, hdeed, hnow, hd⟩ := stride_of_go? hgo
    rw [roleAt_of_ledger hd, hdeed.roleAt_setTask hknown hwas hnow]
    exact (hdeed.leavesCalls hknown hwas).roles task role hrole
  · exact (leavesCalls_of_append rfl).roles task role hrole
  · rwa [roleAt_of_ledger hledger]

theorem role_eq_of_perform? {action : ClientAction} (h : c.perform? action = some d) (hknown : c.HandlesKnown)
    (hwas : c.tasks[task]? = some was) (hstate : d.tasks[task]? = some state) : was.role = state.role := by
  have hrole : d.roleAt task = some was.role := roleAt_perform? h hknown (by rw [roleAt, hwas]; rfl)
  rw [roleAt, hstate] at hrole
  exact (Option.some.inj hrole).symm

/-- A deed starts the two background tasks, or it starts no task. -/
theorem Deed.starts (hdeed : Deed c was now e) :
    e.tasks.length = c.tasks.length ∨ e.tasks = c.tasks ++ [.receive .fresh, .refresh .fresh] ∧
      ∃ call, now = .call call (.launched ⟨c.tasks.length, c.tasks.length + 1⟩) := by
  cases hdeed with
  | nothing | keep | take => exact .inl rfl
  | takeIn place bytes => exact .inl (by rw [tasks_receiveLine])
  | register => exact .inl (by rw [tasks_shareSlot])
  | launch call => exact .inr ⟨List.append_assoc .., call, rfl⟩
  | abort other =>
    refine .inl ?_
    rcases c.abort_eq other with heq | ⟨role, -, heq⟩
    · rw [heq]
    · rw [heq]
      exact List.length_set

/-- A call is where it was, or it has just been made, or the step is its own. -/
theorem call_perform?_cases {action : ClientAction} {call : Call} (h : c.perform? action = some d)
    (hknown : c.HandlesKnown) (hstate : d.tasks[task]? = some state) (hcall : state.role = .call call) :
    c.tasks[task]? = some state ∨ state = .call call .fresh ∨
      ∃ strand turn was, action = .go strand turn ∧ strand.task = task ∧ c.tasks[task]? = some was ∧
        was.role = .call call := by
  cases hbefore : c.tasks[task]? with
  | some was =>
    have hwas : was.role = .call call := (role_eq_of_perform? h hknown hbefore hstate).trans hcall
    rcases action.own_or_other task with ⟨strand, turn, haction, htask⟩ | hothers
    · exact .inr (.inr ⟨strand, turn, was, haction, htask, rfl, hwas⟩)
    · exact .inl ((calls_perform? h hknown hbefore hwas hothers).symm.trans hstate)
  | none =>
    have hnew : c.tasks.length ≤ task := List.getElem?_eq_none_iff.mp hbefore
    refine .inr (.inl ?_)
    rcases perform?_cases h with ⟨strand, turn, -, hgo⟩ | ⟨new, rfl⟩ | hledger
    · -- A step starts no calls.
      exfalso
      obtain ⟨was, hwas, -, now, e, hdeed, -, hd⟩ := stride_of_go? hgo
      have hne : strand.task ≠ task :=
        Nat.ne_of_lt (Nat.lt_of_lt_of_le (List.getElem?_eq_some_iff.mp hwas).1 hnew)
      have he : e.tasks[task]? = some state := by
        rw [← hstate, tasks_eq_of_ledger hd]
        exact (List.getElem?_set_ne hne).symm
      rcases hdeed.starts with hlength | ⟨htasks, -⟩
      · rw [List.getElem?_eq_none (hlength ▸ hnew)] at he
        cases he
      · rw [htasks, List.getElem?_append_right hnew] at he
        have hmem := List.mem_of_getElem? he
        simp only [List.mem_cons, List.not_mem_nil, or_false] at hmem
        rcases hmem with rfl | rfl <;> cases hcall
    · have hmem : (c.tasks ++ [Task.call new .fresh])[task]? = some state := hstate
      rw [List.getElem?_append_right hnew] at hmem
      obtain rfl := List.mem_singleton.mp (List.mem_of_getElem? hmem)
      cases hcall
      rfl
    · rw [tasks_eq_of_ledger hledger, hbefore] at hstate
      cases hstate

end Client

end AlarmPanel
