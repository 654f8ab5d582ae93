import AlarmPanel.Client.Script
import AlarmPanel.Proofs.Circuit.Notices
import AlarmPanel.Proofs.Client.Moves

/-!
# Keeping the client up

The background tasks are launched once, one of each kind, however often and by whomever the client is started.
Their handles pass to the first call that asks for them, and until both tasks are over somebody has the
handles (`Client.Launched`). So a call that keeps the client up ends when both tasks are over, unless another
call has taken the handles before it; then it does not wait (`Client.keepalive_waits`).
-/

namespace AlarmPanel

/-- Where a call that keeps the client up may stand. -/
def CallPlace.keepsUp : CallPlace → Bool
  | .fresh | .launched _ | .collecting | .joining _ => true
  | _ => false

/-- Whether the task waits for the receive task, the refresh task being over. -/
def Task.stopsReceive : Task → Bool
  | .call _ (.stoppingReceive _ _) => true
  | _ => false

theorem Task.exists_call_of_handles? {state : Task} {handles : Handles} (h : state.handles? = some handles) :
    ∃ call place, state = .call call place := by
  unfold handles? at h
  split at h
  next call _ => exact ⟨call, _, rfl⟩
  next call _ => exact ⟨call, _, rfl⟩
  next call _ _ => exact ⟨call, _, rfl⟩
  next call _ _ => exact ⟨call, _, rfl⟩
  next => cases h

namespace Circuit

/-- There is a receive task once the client has been started. -/
theorem kept_started : Kept fun k => k.started = true → ∃ task, k.receivers task ≠ none :=
  kept_of_shift fun {k l} hshift hk hstarted => by
    cases hshift with
    | quiet _ hsame _ _ _ hreceivers =>
      obtain ⟨task, htask⟩ := hk (hsame.symm.trans hstarted)
      refine ⟨task, ?_⟩
      rcases hreceivers task with heq | ⟨-, hover⟩
      · rwa [heq]
      · rw [hover]
        exact nofun
    | succeed hsame _ _ _ hreceivers | announce hsame _ _ _ _ hreceivers =>
      rw [hreceivers]
      exact hk (hsame.symm.trans hstarted)
    | @launch task _ hl | @read task _ _ _ hl | @lose task _ _ _ hl =>
      subst hl
      exact ⟨task, by simp [setReceiver]⟩

end Circuit

namespace Client

variable {c d e : Client} {strand : Strand} {task : Nat} {turn : Turn} {was now : Task} {more : List Effect}
  {handles other : Handles} {action : ClientAction} {role : Role}

/-! ## Who has the handles -/

/-- Both background tasks are over. -/
def BothOver (handles : Handles) (c : Client) : Prop :=
  c.isOver handles.receive = true ∧ c.isOver handles.refresh = true

/-- The task has taken the handles. It goes on to the receive task once the refresh task is over. -/
def Holds (task : Nat) (handles : Handles) (c : Client) : Prop :=
  ∃ state, c.tasks[task]? = some state ∧ state.handles? = some handles ∧
    (state.stopsReceive = true → c.isOver handles.refresh = true)

/-- The handles are kept, or taken, or not needed any longer. -/
def Awaited (handles : Handles) (c : Client) : Prop :=
  c.handles = some handles ∨ (∃ task, c.Holds task handles) ∨ c.BothOver handles

/-- All tasks are calls. -/
def Unlaunched (c : Client) : Prop := ∀ task role, c.roleAt task = some role → ∃ call, role = .call call

/-- The background tasks have been launched: there is one of each kind, and somebody waits for them. -/
structure Launched (handles : Handles) (c : Client) : Prop where
  knows : c.Knows handles
  receive_eq : ∀ task, c.roleAt task = some .receive → task = handles.receive
  refresh_eq : ∀ task, c.roleAt task = some .refresh → task = handles.refresh
  awaited : c.Awaited handles

theorem Launched.eq_of_knows (h : Launched handles c) (hknows : c.Knows other) : other = handles :=
  congrArg₂ Handles.mk (h.receive_eq _ hknows.1) (h.refresh_eq _ hknows.2)

theorem roleAt_of_task (h : c.tasks[task]? = some was) : c.roleAt task = some was.role := by
  rw [roleAt, h]
  rfl

/-- A background task is no call. -/
theorem ne_of_roleAt {other : Nat} {call : Call} (htask : c.roleAt task = some (.call call))
    (hother : c.roleAt other = some role) (hrole : ∀ call, role ≠ .call call) : other ≠ task := by
  rintro rfl
  exact hrole call (Option.some.inj (hother.symm.trans htask))

theorem Knows.ne_task {call : Call} (h : c.Knows handles) (htask : c.roleAt task = some (.call call)) :
    handles.receive ≠ task ∧ handles.refresh ≠ task :=
  ⟨ne_of_roleAt htask h.1 (by simp), ne_of_roleAt htask h.2 (by simp)⟩

theorem isOver_perform? (h : c.perform? action = some d) (hrole : c.roleAt task = some role)
    (hover : c.isOver task = true) : d.isOver task = true := by
  obtain ⟨state, hstate, -⟩ := Option.map_eq_some_iff.mp hrole
  rw [isOver_of_task hstate] at hover
  cases state with
  | receive | refresh | call => cases hover
  | _ => rw [isOver_of_task (ended_perform? h hstate), hover]

theorem BothOver.perform? (hover : c.BothOver handles) (h : c.perform? action = some d)
    (hknows : c.Knows handles) : d.BothOver handles :=
  ⟨isOver_perform? h hknows.1 hover.1, isOver_perform? h hknows.2 hover.2⟩

/-! ## Steps -/

/-- A task that comes to wait for the receive task has seen the refresh task over. -/
theorem isOver_of_move (hmove : Move strand c d was more now) (hstops : now.stopsReceive = true)
    (hhandles : now.handles? = some handles) (hne : handles.refresh ≠ strand.task) :
    d.isOver handles.refresh = true := by
  cases hmove with
  | receive hmove => cases hmove <;> cases hstops
  | refresh hmove => cases hmove <;> cases hstops
  | call hmove =>
    cases hmove with
    | begin hmove => cases hmove <;> cases hstops
    | refreshOver _ hrefresh =>
      cases hhandles
      exact hrefresh hne
    | _ => cases hstops

/-- Who has the handles keeps them in its own step, unless both tasks are over. -/
theorem Holds.go? (hholds : c.Holds strand.task handles) (hknows : c.Knows handles)
    (h : c.go? strand turn = some d) : d.Awaited handles := by
  obtain ⟨state, hstate, hhandles, hstops⟩ := hholds
  obtain ⟨was, more, now, hwas, hmove, hreaches⟩ := move_of_go? h
  obtain rfl := Option.some.inj (hwas.symm.trans hstate)
  have hperform : c.perform? (.go strand turn) = some d := h
  cases hmove with
  | receive | refresh => cases hhandles
  | call hmove =>
    obtain ⟨hreceive, hrefresh⟩ := hknows.ne_task (roleAt_of_task hwas)
    cases hmove with
    | keepHandles hkept | launched _ hkept =>
      cases hhandles
      exact .inl hkept
    | joined hreceive hrefresh =>
      cases hhandles
      exact .inr (.inr (BothOver.perform? ⟨hreceive, hrefresh⟩ hperform hknows))
    | refreshOver _ hover =>
      cases hhandles
      exact .inr (.inl ⟨strand.task, _, hreaches.now_eq, rfl, fun _ => hover hrefresh⟩)
    | receiveOver hover =>
      cases hhandles
      exact .inr (.inr ⟨hover hreceive, isOver_perform? hperform hknows.2 (hstops rfl)⟩)
    | _ => cases hhandles

/-- Who has the handles keeps them while others make their steps. -/
theorem Holds.perform? (hholds : c.Holds task handles) (hknown : c.HandlesKnown) (hknows : c.Knows handles)
    (h : c.perform? action = some d)
    (hother : ∀ strand turn, action = .go strand turn → strand.task ≠ task) : d.Holds task handles := by
  obtain ⟨state, hstate, hhandles, hstops⟩ := hholds
  obtain ⟨call, place, rfl⟩ := Task.exists_call_of_handles? hhandles
  exact ⟨_, calls_perform? h hknown hstate rfl hother, hhandles, fun hwaits =>
    isOver_perform? h hknows.2 (hstops hwaits)⟩

/-- Handles that are kept stay so until a call takes them. -/
theorem awaited_of_kept (hlaunched : Launched handles c) (hkept : c.handles = some handles)
    (hknown : c.HandlesKnown) (h : c.go? strand turn = some d) : d.Awaited handles := by
  obtain ⟨was, hwas, -, now, e, hdeed, hrole, hd⟩ := stride_of_go? h
  have hhandles : d.handles = e.handles := congrArg Ledger.handles hd
  have hknows {other : Handles} (hother : was.handles? = some other) : other = handles :=
    hlaunched.eq_of_knows (hknown other (.inr ⟨was, List.mem_of_getElem? hwas, hother⟩))
  cases hdeed with
  | nothing => exact .inl (hhandles.trans hkept)
  | takeIn place bytes => exact .inl ((hhandles.trans (handles_receiveLine bytes c)).trans hkept)
  | register => exact .inl ((hhandles.trans (handles_shareSlot ..)).trans hkept)
  | launch => exact .inl (hhandles.trans hkept)
  | keep call other =>
    have hsame : other = handles := hknows rfl
    subst hsame
    exact .inl hhandles
  | @take _ _ taken htaken hnow =>
    obtain rfl := Option.some.inj (htaken.symm.trans hkept)
    obtain ⟨_, more, now', hwas', hmove, hreaches⟩ := move_of_go? h
    have htasks : d.tasks[strand.task]? = some now := by
      rw [tasks_eq_of_ledger hd]
      exact List.getElem?_set_self (List.getElem?_eq_some_iff.mp hwas).1
    obtain rfl := Option.some.inj (htasks.symm.trans hreaches.now_eq)
    obtain ⟨call, place, rfl⟩ := Task.exists_call_of_handles? hnow
    have hcall : c.roleAt strand.task = some (.call call) := by rw [roleAt_of_task hwas, ← hrole]; rfl
    refine .inr (.inl ⟨strand.task, _, hreaches.now_eq, hnow, fun hstops => ?_⟩)
    exact isOver_of_move hmove hstops hnow (hlaunched.knows.ne_task hcall).2
  | abort other =>
    refine .inl (hhandles.trans (Eq.trans ?_ hkept))
    rcases c.abort_eq other with heq | ⟨role, -, heq⟩
    · rw [heq]
    · rw [heq]
      rfl

/-- Until both background tasks are over, somebody has their handles. -/
theorem Launched.awaited_perform? (hlaunched : Launched handles c) (hknown : c.HandlesKnown)
    (h : c.perform? action = some d) : d.Awaited handles := by
  rcases hlaunched.awaited with hkept | ⟨task, hholds⟩ | hover
  · rcases perform?_cases h with ⟨strand, turn, -, hgo⟩ | ⟨call, rfl⟩ | hledger
    · exact awaited_of_kept hlaunched hkept hknown hgo
    · exact .inl hkept
    · exact .inl ((congrArg Ledger.handles hledger).trans hkept)
  · rcases action.own_or_other task with ⟨strand, turn, rfl, rfl⟩ | hothers
    · exact hholds.go? hlaunched.knows h
    · exact .inr (.inl ⟨task, hholds.perform? hknown hlaunched.knows h hothers⟩)
  · exact .inr (.inr (hover.perform? h hlaunched.knows))

/-! ## Launching -/

theorem receiverAt_ne_none_iff : c.receiverAt task ≠ none ↔ c.roleAt task = some .receive := by
  unfold receiverAt roleAt
  cases c.tasks[task]? with
  | none => simp
  | some state =>
    cases state with
    | receive place => cases place <;> simp [Task.receiver?, Task.role]
    | refresh | call => simp [Task.receiver?, Task.role]
    | _ role => cases role <;> simp [Task.receiver?, Task.role]

/-- What holds of the background tasks and those who wait for them, after every history. -/
structure Background (c : Client) : Prop where
  known : c.HandlesKnown
  orderly : Orderly c.connectLock fun strand => c.connectAt strand
  lone : Circuit.Lone c.circuit
  started : c.started = true → ∃ receive, c.roleAt receive = some .receive
  places : ∀ (task : Nat) (place : CallPlace), c.tasks[task]? = some (.call .keepalive place) →
    place.keepsUp = true ∧ (place = .collecting → ∃ receive, c.roleAt receive = some .receive)
  launched : c.Unlaunched ∨ ∃ handles, Launched handles c

/-- Whoever waits for handles that have not been launched has launched the background tasks before. -/
theorem places_perform? (hbackground : Background c) (h : c.perform? action = some d) {place : CallPlace}
    (hstate : d.tasks[task]? = some (.call .keepalive place)) :
    place.keepsUp = true ∧ (place = .collecting → ∃ receive, d.roleAt receive = some .receive) := by
  have hstays (hreceive : ∃ receive, c.roleAt receive = some .receive) :
      ∃ receive, d.roleAt receive = some .receive := by
    obtain ⟨receive, hreceive⟩ := hreceive
    exact ⟨receive, roleAt_perform? h hbackground.known hreceive⟩
  rcases call_perform?_cases h hbackground.known hstate rfl with
    hsame | hnew | ⟨strand, turn, was, rfl, rfl, hwas, hcall⟩
  · exact (hbackground.places task place hsame).imp id fun hreceive hplace => hstays (hreceive hplace)
  · cases hnew
    exact ⟨rfl, nofun⟩
  · obtain ⟨more, hmove, hreaches⟩ := move_of_go?_of_tasks h hwas hstate
    cases hmove with
    | receive | refresh => cases hcall
    | call hmove =>
      cases hcall
      obtain ⟨hkeeps, -⟩ := hbackground.places _ _ hwas
      cases hmove with
      | begin hmove =>
        cases hmove with
        | launch => exact ⟨rfl, nofun⟩
        | collect hstarted => exact ⟨rfl, fun _ => hstays (hbackground.started hstarted)⟩
        | send _ hcall | ask _ _ _ _ hcall => cases hcall
      | @keepHandles handles =>
        have hknows := hbackground.known handles (.inr ⟨_, List.mem_of_getElem? hwas, rfl⟩)
        exact ⟨rfl, fun _ => hstays ⟨handles.receive, hknows.1⟩⟩
      | join => exact ⟨rfl, nofun⟩
      | stop _ hcall => exact absurd rfl hcall
      | _ => cases hkeeps

/-- What starts no background task leaves them launched, or not launched. -/
theorem launched_of_roles (hbackground : Background c) (h : c.perform? action = some d)
    (hroles : ∀ task role, d.roleAt task = some role → c.roleAt task = some role ∨ ∃ call, role = .call call) :
    d.Unlaunched ∨ ∃ handles, Launched handles d := by
  have hbefore {task : Nat} {role : Role} (hrole : ∀ call, role ≠ .call call)
      (hnow : d.roleAt task = some role) : c.roleAt task = some role :=
    (hroles task role hnow).resolve_right fun ⟨call, hcall⟩ => hrole call hcall
  rcases hbackground.launched with hnone | ⟨handles, hlaunched⟩
  · refine .inl fun task role hrole => ?_
    exact (hroles task role hrole).elim (hnone task role) id
  · refine .inr ⟨handles, ⟨?_, ?_⟩, ?_, ?_, hlaunched.awaited_perform? hbackground.known h⟩
    · exact roleAt_perform? h hbackground.known hlaunched.knows.1
    · exact roleAt_perform? h hbackground.known hlaunched.knows.2
    · exact fun task hnow => hlaunched.receive_eq task (hbefore (by simp) hnow)
    · exact fun task hnow => hlaunched.refresh_eq task (hbefore (by simp) hnow)

theorem roleAt_of_length (hleaves : LeavesCalls c e) (hlength : e.tasks.length = c.tasks.length)
    (hrole : e.roleAt task = some role) : c.roleAt task = some role := by
  cases hbefore : c.tasks[task]? with
  | some was =>
    have hwas := roleAt_of_task hbefore
    rw [hwas, ← hleaves.roles task was.role hwas, hrole]
  | none =>
    have hnone : e.tasks[task]? = none := by
      rw [List.getElem?_eq_none_iff] at hbefore ⊢
      rwa [hlength]
    rw [roleAt, hnone] at hrole
    cases hrole

/-- The tasks are those before and the two that have been launched. -/
theorem roleAt_of_launch (htasks : e.tasks = c.tasks ++ [.receive .fresh, .refresh .fresh])
    (hrole : e.roleAt task = some role) :
    c.roleAt task = some role ∨ task = c.tasks.length ∧ role = .receive ∨
      task = c.tasks.length + 1 ∧ role = .refresh := by
  rw [roleAt, htasks] at hrole
  rcases Nat.lt_or_ge task c.tasks.length with hold | hnew
  · rw [List.getElem?_append_left hold] at hrole
    exact .inl hrole
  · obtain ⟨place, rfl⟩ := Nat.exists_eq_add_of_le hnew
    rw [List.getElem?_append_right hnew, Nat.add_sub_cancel_left] at hrole
    rcases place with _ | _ | place
    · exact .inr (.inl ⟨rfl, (Option.some.inj hrole).symm⟩)
    · exact .inr (.inr ⟨rfl, (Option.some.inj hrole).symm⟩)
    · cases hrole

/-- The background tasks that a step launches are the first ones. -/
theorem launched_of_launch {call : Call} (hbackground : Background c) (hlone : Circuit.Lone d.circuit)
    (h : c.perform? (.go strand turn) = some d)
    (htasks : e.tasks = c.tasks ++ [.receive .fresh, .refresh .fresh])
    (hroles : ∀ task, d.roleAt task = e.roleAt task)
    (hnow : d.tasks[strand.task]? = some (.call call (.launched ⟨c.tasks.length, c.tasks.length + 1⟩))) :
    Launched ⟨c.tasks.length, c.tasks.length + 1⟩ d := by
  have hknows : d.Knows ⟨c.tasks.length, c.tasks.length + 1⟩ := by
    refine ⟨?_, ?_⟩
    · rw [hroles, roleAt, htasks, List.getElem?_append_right (Nat.le_refl _), Nat.sub_self]
      rfl
    · rw [hroles, roleAt, htasks, List.getElem?_append_right (Nat.le_add_right _ 1), Nat.add_sub_cancel_left]
      rfl
  have honly (task : Nat) (hrole : d.roleAt task = some .receive) : task = c.tasks.length :=
    hlone.sole _ _ (receiverAt_ne_none_iff.mpr hrole) (receiverAt_ne_none_iff.mpr hknows.1)
  have hholds : d.Holds strand.task ⟨c.tasks.length, c.tasks.length + 1⟩ :=
    ⟨_, hnow, rfl, fun hstops => absurd hstops Bool.false_ne_true⟩
  refine ⟨hknows, honly, fun task hrole => ?_, .inr (.inl ⟨strand.task, hholds⟩)⟩
  rw [hroles] at hrole
  rcases roleAt_of_launch htasks hrole with hbefore | ⟨-, hreceive⟩ | ⟨hlast, -⟩
  · -- A refresh task before has a receive task beside it, and the new one would be a second.
    exfalso
    rcases hbackground.launched with hnone | ⟨handles, hlaunched⟩
    · obtain ⟨call, hcall⟩ := hnone task _ hbefore
      cases hcall
    · have hlast := honly _ (roleAt_perform? h hbackground.known hlaunched.knows.1)
      obtain ⟨state, hstate, -⟩ := Option.map_eq_some_iff.mp hlaunched.knows.1
      exact Nat.ne_of_lt (List.getElem?_eq_some_iff.mp hstate).1 hlast
  · cases hreceive
  · exact hlast

theorem launched_perform? (hbackground : Background c) (hlone : Circuit.Lone d.circuit)
    (h : c.perform? action = some d) : d.Unlaunched ∨ ∃ handles, Launched handles d := by
  have hknown := hbackground.known
  rcases perform?_cases h with ⟨strand, turn, rfl, hgo⟩ | ⟨call, rfl⟩ | hledger
  · obtain ⟨was, hwas, -, now, e, hdeed, hnow, hd⟩ := stride_of_go? hgo
    have hroles (task : Nat) : d.roleAt task = e.roleAt task := by
      rw [roleAt_of_ledger hd, hdeed.roleAt_setTask hknown hwas hnow]
    rcases hdeed.starts with hlength | ⟨htasks, call, rfl⟩
    · refine launched_of_roles hbackground h fun task role hrole => .inl ?_
      rw [hroles] at hrole
      exact roleAt_of_length (hdeed.leavesCalls hknown hwas) hlength hrole
    · have hlt : strand.task < e.tasks.length := by
        rw [htasks, List.length_append]
        exact Nat.lt_add_right _ (List.getElem?_eq_some_iff.mp hwas).1
      have hlaunched : d.tasks[strand.task]? =
          some (.call call (.launched ⟨c.tasks.length, c.tasks.length + 1⟩)) := by
        rw [tasks_eq_of_ledger hd]
        exact List.getElem?_set_self hlt
      exact .inr ⟨_, launched_of_launch hbackground hlone h htasks hroles hlaunched⟩
  · refine launched_of_roles hbackground h fun task role hrole => ?_
    have hmem : ((c.tasks ++ [Task.call call .fresh])[task]?).map Task.role = some role := hrole
    rcases Nat.lt_or_ge task c.tasks.length with hold | hnew
    · rw [List.getElem?_append_left hold] at hmem
      exact .inl hmem
    · rw [List.getElem?_append_right hnew] at hmem
      obtain ⟨state, hstate, rfl⟩ := Option.map_eq_some_iff.mp hmem
      obtain rfl := List.mem_singleton.mp (List.mem_of_getElem? hstate)
      exact .inr ⟨call, rfl⟩
  · refine launched_of_roles hbackground h fun task role hrole => .inl ?_
    rwa [← roleAt_of_ledger hledger]

/-! ## Histories -/

theorem background_new (settings : ClientSettings) (handlers : Handlers) (link : Link) :
    Background (new settings handlers link) where
  known := handlesKnown_new settings handlers link
  orderly := .free
  lone := ⟨nofun, nofun⟩
  started := nofun
  places := nofun
  launched := .inl nofun

theorem Background.perform? (hbackground : Background c) (h : c.perform? action = some d) : Background d := by
  have hstep := step_of_perform? h
  have hlone : Circuit.Lone d.circuit := (Circuit.kept_of_shift fun hshift hk => hk.shift hshift).step hstep
    hbackground.orderly hbackground.lone
  refine ⟨handlesKnown_perform? h hbackground.known, orderly_perform? h hbackground.orderly, hlone, ?_,
    fun _ _ => places_perform? hbackground h, launched_perform? hbackground hlone h⟩
  have hreceiver := Circuit.kept_started.step hstep hbackground.orderly fun hstarted => by
    obtain ⟨receive, hreceive⟩ := hbackground.started hstarted
    exact ⟨receive, receiverAt_ne_none_iff.mpr hreceive⟩
  intro hstarted
  obtain ⟨receive, hreceive⟩ := hreceiver hstarted
  exact ⟨receive, receiverAt_ne_none_iff.mp hreceive⟩

variable {settings : ClientSettings} {handlers : Handlers} {link : Link} {actions : List ClientAction}

theorem background_of_performAll? (h : (new settings handlers link).performAll? actions = some c) :
    Background c :=
  performAll?_induction (fun _ _ _ hbackground => hbackground.perform?) h (background_new settings handlers link)

theorem Background.exists_launched (hbackground : Background c)
    (hreceive : ∃ receive, c.roleAt receive = some .receive) : ∃ handles, Launched handles c := by
  obtain ⟨receive, hreceive⟩ := hreceive
  refine hbackground.launched.resolve_left fun hnone => ?_
  obtain ⟨call, hcall⟩ := hnone receive _ hreceive
  cases hcall

/-- A call that keeps the client up ends when both background tasks are over, or when it finds that another
call has their handles. -/
theorem Background.ended (hbackground : Background c) (h : c.perform? action = some d)
    (hrole : c.roleAt task = some (.call .keepalive)) (hbefore : c.isOver task = false)
    (hover : d.isOver task = true) :
    ∃ handles, d.Knows handles ∧ (d.BothOver handles ∨ ∃ other, other ≠ task ∧ d.Holds other handles) := by
  obtain ⟨was, hwas, hcall⟩ := Option.map_eq_some_iff.mp hrole
  rw [isOver_of_task hwas] at hbefore
  have hown : ∃ strand turn, action = .go strand turn ∧ strand.task = task := by
    by_contra hother
    have hsame := calls_perform? h hbackground.known hwas hcall fun strand turn haction htask =>
      hother ⟨strand, turn, haction, htask⟩
    rw [isOver_of_task hsame, hbefore] at hover
    cases hover
  obtain ⟨strand, turn, rfl, rfl⟩ := hown
  obtain ⟨_, more, now, hwas', hmove, hreaches⟩ := move_of_go? h
  obtain rfl := Option.some.inj (hwas.symm.trans hwas')
  rw [isOver_of_task hreaches.now_eq] at hover
  cases hmove with
  | receive | refresh => cases hcall
  | call hmove =>
    cases hcall
    obtain ⟨hkeeps, hcollects⟩ := hbackground.places _ _ hwas
    cases hmove with
    | begin hmove =>
      cases hmove with
      | launch | collect => cases hover
      | send _ hcall | ask _ _ _ _ hcall | refuse _ hcall => cases hcall
    | taken _ hnone =>
      obtain ⟨receive, hreceive⟩ := hcollects rfl
      obtain ⟨handles, hlaunched⟩ := (hbackground.perform? h).exists_launched
        ⟨receive, roleAt_perform? h hbackground.known hreceive⟩
      refine ⟨handles, hlaunched.knows, ?_⟩
      -- It has not got the handles, so somebody else has them, or nobody needs them.
      rcases hlaunched.awaited with hkept | ⟨other, hholds⟩ | hover
      · cases hnone.symm.trans hkept
      · refine .inr ⟨other, ?_, hholds⟩
        rintro rfl
        obtain ⟨state, hstate, hhandles, -⟩ := hholds
        obtain rfl := Option.some.inj (hreaches.now_eq.symm.trans hstate)
        cases hhandles
      · exact .inl hover
    | @joined _ handles hreceive hrefresh =>
      have hknows : c.Knows handles := hbackground.known handles (.inr ⟨_, List.mem_of_getElem? hwas, rfl⟩)
      refine ⟨handles, ⟨?_, ?_⟩, .inl (BothOver.perform? ⟨hreceive, hrefresh⟩ h hknows)⟩
      · exact roleAt_perform? h hbackground.known hknows.1
      · exact roleAt_perform? h hbackground.known hknows.2
    | launched hcall | stop _ hcall => exact absurd rfl hcall
    | keepHandles | join => cases hover
    | _ => cases hkeeps

/-- After every history of a new client there is at most one receive task and at most one refresh task. When a
call that keeps the client up ends, both have been launched, and both are over or another call has taken their
handles. -/
theorem keepalive_waits (h : (new settings handlers link).performAll? actions = some c) :
    (∀ task other role, c.roleAt task = some role → c.roleAt other = some role →
      (∀ call, role ≠ .call call) → task = other) ∧
    ∀ action d task, c.perform? action = some d → c.roleAt task = some (.call .keepalive) →
      c.isOver task = false → d.isOver task = true →
      ∃ handles, d.Knows handles ∧ (d.isOver handles.receive = true ∧ d.isOver handles.refresh = true ∨
        ∃ other, other ≠ task ∧ (d.tasks[other]?).bind Task.handles? = some handles) := by
  have hbackground := background_of_performAll? h
  constructor
  · intro task other role htask hother hrole
    rcases hbackground.launched with hnone | ⟨handles, hlaunched⟩
    · obtain ⟨call, hcall⟩ := hnone task role htask
      exact absurd hcall (hrole call)
    · cases role with
      | receive => exact (hlaunched.receive_eq task htask).trans (hlaunched.receive_eq other hother).symm
      | refresh => exact (hlaunched.refresh_eq task htask).trans (hlaunched.refresh_eq other hother).symm
      | call call => exact absurd rfl (hrole call)
  · intro action d task hd hrole hbefore hover
    obtain ⟨handles, hknows, hends⟩ := hbackground.ended hd hrole hbefore hover
    refine ⟨handles, hknows, hends.imp id fun ⟨other, hne, state, hstate, hhandles, _⟩ => ⟨other, hne, ?_⟩⟩
    rw [hstate, Option.bind_some, hhandles]

/-- A call that keeps the client up, and another one that closes it: the tasks stop of themselves. -/
theorem keepalive_waits_closed :
    let c₀ := new .default ⟨none, none, none, none⟩ (.new false false false)
    let actions : List ClientAction :=
      [.call .keepalive] ++ .replicate 3 (.go ⟨0, 0⟩ .own) ++ [.go ⟨2, 0⟩ .own, .call .close, .go ⟨3, 0⟩ .own,
        .go ⟨1, 0⟩ .own, .go ⟨2, 0⟩ .signal]
    ∃ c d handles, c₀.performAll? actions = some c ∧ c.perform? (.go ⟨0, 0⟩ .own) = some d ∧
      d.answer? 0 = some .done ∧ d.Knows handles ∧ d.isOver handles.receive = true ∧
      d.isOver handles.refresh = true := by
  intro c₀ actions
  have hrun : (c₀.performAll? actions).any fun c =>
      c.roleAt 0 = some (.call .keepalive) ∧ c.isOver 0 = false ∧
        (c.perform? (.go ⟨0, 0⟩ .own)).any fun d => d.isOver 0 = true ∧ d.answer? 0 = some .done ∧
          ∀ state ∈ d.tasks, state.handles? = none := by
    decide +kernel
  obtain ⟨c, hc, hends⟩ := (Option.any_eq_true _ _).mp hrun
  obtain ⟨hrole, hbefore, hends⟩ := of_decide_eq_true hends
  obtain ⟨d, hd, hends⟩ := (Option.any_eq_true _ _).mp hends
  obtain ⟨hover, hdone, hnone⟩ := of_decide_eq_true hends
  obtain ⟨handles, hknows, hends⟩ := (keepalive_waits hc).2 _ d 0 hd hrole hbefore hover
  refine ⟨c, d, handles, hc, hd, hdone, hknows, hends.resolve_right ?_⟩
  rintro ⟨other, -, hholds⟩
  obtain ⟨state, hstate, hhandles⟩ := Option.bind_eq_some_iff.mp hholds
  cases (hnone state (List.mem_of_getElem? hstate)).symm.trans hhandles

/-- Two calls that keep the client up: the second one ends at once, while both background tasks go on. -/
theorem keepalive_ends_before_tasks :
    let c₀ := new .default ⟨none, none, none, none⟩ (.new false false false)
    let actions : List ClientAction :=
      [.call .keepalive] ++ .replicate 3 (.go ⟨0, 0⟩ .own) ++ [.call .keepalive] ++
        .replicate 2 (.go ⟨3, 0⟩ .own)
    ∃ c, c₀.performAll? actions = some c ∧ c.answer? 3 = some .done ∧ c.Knows ⟨1, 2⟩ ∧
      c.isOver 1 = false ∧ c.isOver 2 = false := by
  intro c₀ actions
  have hrun : (c₀.performAll? actions).any fun c => c.answer? 3 = some .done ∧
      (c.roleAt 1 = some .receive ∧ c.roleAt 2 = some .refresh) ∧ c.isOver 1 = false ∧ c.isOver 2 = false := by
    decide +kernel
  obtain ⟨c, hc, hends⟩ := (Option.any_eq_true _ _).mp hrun
  obtain ⟨hdone, hknows, hgoOn⟩ := of_decide_eq_true hends
  exact ⟨c, hc, hdone, hknows, hgoOn⟩

end Client

end AlarmPanel
