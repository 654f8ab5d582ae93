import AlarmPanel.Proofs.Circuit.Steps
import AlarmPanel.Proofs.Client.Moves
import AlarmPanel.Proofs.Client.Shutdown

/-!
# Where the strands come to stand

Only its own steps bring a task on, and a strand comes to stand somewhere on the way to the link by beginning to
ask for the connect lock, or by a step of connecting (`Client.connectAt_perform?_cases`). If dials take no time
nobody is ever in one, and whoever pauses after a dial has been there since before the client was closed, so that
the signal to shut down is kept for it (`Client.Prompt`).
-/

namespace AlarmPanel

/-! ## Places -/

theorem ne_of_soleBranch {place here : Option ConnectPlace} (h : soleBranch place 0 ≠ here) : place ≠ here := by
  rwa [soleBranch, Function.update_self] at h

theorem ne_of_sole_place {place here : ConnectPlace} (h : soleBranch (some place) 0 ≠ some here) : place ≠ here :=
  fun heq => ne_of_soleBranch h (congrArg some heq)

namespace Branches

variable {branches : Branches} {branch other : Nat} {here : SendPlace} {next : Option SendPlace}
  {place : ConnectPlace}

theorem connects_of_getElem? (h : branches[branch]? = some (some here)) :
    branches.connects branch = here.connectPlace? := by
  rw [connects, h]
  rfl

/-- After a step of one branch the others stand where they stood. -/
theorem connects_set_cases (hbranch : branches[branch]? = some (some here))
    (hplace : Branches.connects (branches.set branch next) other = some place) :
    branches.connects other = some place ∨
      other = branch ∧ next.bind SendPlace.connectPlace? = some place := by
  rw [connects_set branches (List.getElem?_eq_some_iff.mp hbranch).1] at hplace
  by_cases hsame : other = branch
  · rw [hsame, Function.update_self] at hplace
    exact .inr ⟨hsame, hplace⟩
  · rw [Function.update_of_ne hsame] at hplace
    exact .inl hplace

end Branches

namespace Task

/-- Whether the task is about to make its first step. -/
def isFresh : Task → Bool
  | .receive .fresh | .refresh .fresh | .call _ .fresh => true
  | _ => false

/-- Whether the task has not begun or has been ended by another one. -/
def isIdle : Task → Bool
  | .over _ ending => ending = .aborted
  | task => task.isFresh

theorem eq_of_isIdle {task : Task} (h : task.isIdle = true) :
    (task = .receive .fresh ∨ task = .refresh .fresh ∨ ∃ asked, task = .call asked .fresh) ∨
      ∃ role, task = .over role .aborted := by
  unfold isIdle at h
  split at h
  next role ending =>
    rw [of_decide_eq_true h]
    exact .inr ⟨role, rfl⟩
  next =>
    unfold isFresh at h
    split at h
    next => exact .inl (.inl rfl)
    next => exact .inl (.inr (.inl rfl))
    next asked _ => exact .inl (.inr (.inr ⟨asked, rfl⟩))
    next => cases h

theorem connectAt_of_isIdle {task : Task} (h : task.isIdle = true) (branch : Nat) :
    task.connectAt branch = none := by
  rcases eq_of_isIdle h with (rfl | rfl | ⟨asked, rfl⟩) | ⟨role, rfl⟩ <;> rfl

/-- Whoever pauses after a failed dial listens for the signal to shut down. -/
theorem listens_of_connectAt {task : Task} {branch wake : Nat} (h : task.connectAt branch = some (.pausing wake)) :
    task.listens = true := by
  have hbranches {branches : Branches} (h : branches.connects branch = some (.pausing wake)) :
      (branches.filterMap id).any SendPlace.pauses = true := by
    obtain ⟨hbranch, hlt⟩ := Branches.getElem?_of_connects h
    refine (any_pauses_branches branches).mpr ⟨branch, hlt, ?_⟩
    rw [hbranch]
    rfl
  have hsend {place : SendPlace} (h : soleBranch place.connectPlace? branch = some (.pausing wake)) :
      place.pauses = true := by
    rw [SendPlace.pauses, (soleBranch_eq_some h).2]
    rfl
  cases task with
  | receive place =>
    cases place with
    | connecting place =>
      rw [listens_receive_connecting, Option.some.inj (soleBranch_eq_some h).2]
      rfl
    | fresh | reading => cases h
  | refresh place =>
    cases place with
    | updating => rfl
    | fresh | resting => cases h
  | call call place =>
    cases place with
    | connecting place =>
      rw [listens_call_connecting, Option.some.inj (soleBranch_eq_some h).2]
      rfl
    | sending line place => exact (listens_call_sending ..).trans (hsend h)
    | requesting slot command patience line place => exact (listens_call_requesting ..).trans (hsend h)
    | updating branches => exact (listens_call_updating ..).trans (hbranches h)
    | _ => cases h
  | _ => cases h

end Task

namespace Client

variable {c d e : Client} {strand mover : Strand} {task : Nat} {turn : Turn} {was now state : Task}
  {more : List Effect} {action : ClientAction} {place : ConnectPlace}

/-! ## What an action does to a task -/

/-- A task that has not made a step of its own is where it was, or it is new or has been ended by another one. -/
theorem Deed.task_cases (hdeed : Deed c was now e) (h : e.tasks[task]? = some state) :
    c.tasks[task]? = some state ∨
      state.isIdle = true ∧ (c.tasks[task]? ≠ none → ∃ role, state = .over role .aborted) := by
  cases hdeed with
  | nothing | keep | take => exact .inl h
  | takeIn place bytes =>
    rw [tasks_receiveLine] at h
    exact .inl h
  | register =>
    rw [tasks_shareSlot] at h
    exact .inl h
  | launch call =>
    have hmem : (c.tasks ++ [.receive .fresh] ++ [.refresh .fresh])[task]? = some state := h
    rw [List.append_assoc] at hmem
    rcases Nat.lt_or_ge task c.tasks.length with hold | hnew
    · rw [List.getElem?_append_left hold] at hmem
      exact .inl hmem
    · rw [List.getElem?_append_right hnew] at hmem
      have hstate := List.mem_of_getElem? hmem
      simp only [List.cons_append, List.nil_append, List.mem_cons, List.not_mem_nil, or_false] at hstate
      have hnone : c.tasks[task]? = none := List.getElem?_eq_none hnew
      rcases hstate with rfl | rfl <;> exact .inr ⟨rfl, fun hold => absurd hnone hold⟩
  | abort other =>
    rcases c.abort_eq other with heq | ⟨role, -, heq⟩
    · rw [heq] at h
      exact .inl h
    · rw [heq] at h
      have hset : (c.tasks.set other (.over role .aborted))[task]? = some state := h
      by_cases hother : other = task
      · subst hother
        rw [List.getElem?_set_self'] at hset
        obtain ⟨-, -, rfl⟩ := Option.map_eq_some_iff.mp hset
        exact .inr ⟨rfl, fun _ => ⟨role, rfl⟩⟩
      · rw [List.getElem?_set_ne hother] at hset
        exact .inl hset

/-- A task is where it was, or it is new or has been ended by another one, or it has made a step of its own. -/
theorem task_perform?_cases (h : c.perform? action = some d) (hstate : d.tasks[task]? = some state) :
    c.tasks[task]? = some state ∨
      (state.isIdle = true ∧ (c.tasks[task]? ≠ none → ∃ role, state = .over role .aborted)) ∨
      ∃ strand turn was more, action = .go strand turn ∧ strand.task = task ∧ c.tasks[task]? = some was ∧
        Move strand c d was more state := by
  rcases perform?_cases h with ⟨strand, turn, rfl, hgo⟩ | ⟨call, rfl⟩ | hledger
  · obtain ⟨was, more, now, hwas, hmove, hreaches⟩ := move_of_go? hgo
    by_cases htask : strand.task = task
    · subst htask
      obtain rfl := Option.some.inj (hreaches.now_eq.symm.trans hstate)
      exact .inr (.inr ⟨strand, turn, was, more, rfl, rfl, hwas, hmove⟩)
    · obtain ⟨_, _, -, now', e, hdeed, -, hd⟩ := stride_of_go? hgo
      rw [tasks_eq_of_ledger hd] at hstate
      have he : e.tasks[task]? = some state := by
        rw [← hstate]
        exact (List.getElem?_set_ne htask).symm
      exact (hdeed.task_cases he).imp id .inl
  · have hmem : (c.tasks ++ [Task.call call .fresh])[task]? = some state := hstate
    rcases Nat.lt_or_ge task c.tasks.length with hold | hnew
    · rw [List.getElem?_append_left hold] at hmem
      exact .inl hmem
    · rw [List.getElem?_append_right hnew] at hmem
      obtain rfl := List.mem_singleton.mp (List.mem_of_getElem? hmem)
      exact .inr (.inl ⟨rfl, fun hold => absurd (List.getElem?_eq_none hnew) hold⟩)
  · rw [tasks_eq_of_ledger hledger] at hstate
    exact .inl hstate

/-! ## Where strands come to stand -/

theorem SendMove.connectPlace?_eq {line : String} {here next : SendPlace}
    (hmove : SendMove strand line c here more (.place next)) (hplace : next.connectPlace? = some place) :
    ∃ was, here.connectPlace? = some was ∧ ConnectMove strand c was more (.place place) := by
  cases hmove with
  | connecting hmove =>
    cases hplace
    exact ⟨_, rfl, hmove⟩
  | connected | ask | begin => cases hplace

theorem UpdateMove.connects_cases {branches rest : Branches} {branch : Nat}
    (hmove : UpdateMove strand c branches more (.place rest)) (hplace : rest.connects branch = some place) :
    branches.connects branch = some place ∨
      ∃ was, branches.connects branch = some was ∧ ConnectMove strand c was more (.place place) := by
  cases hmove with
  | goOn hbranch hmove =>
    rcases Branches.connects_set_cases hbranch hplace with hstays | ⟨hsame, hnext⟩
    · exact .inl hstays
    · obtain ⟨was, hwas, hmove⟩ := hmove.connectPlace?_eq hnext
      refine .inr ⟨was, ?_, hmove⟩
      rw [hsame, Branches.connects_of_getElem? hbranch]
      exact hwas
  | done hbranch =>
    rcases Branches.connects_set_cases hbranch hplace with hstays | ⟨-, hnone⟩
    · exact .inl hstays
    · cases hnone

/-- A strand that has come to stand somewhere has begun to ask for the lock, or has made a step of
connecting. -/
theorem Move.connectAt_cases {branch : Nat} (hmove : Move strand c d was more now)
    (hplace : now.connectAt branch = some place) :
    was.connectAt branch = some place ∨ place = .asking ∨
      ∃ here, was.connectAt branch = some here ∧ ConnectMove strand c here more (.place place) := by
  have hasks (h : soleBranch (some .asking) branch = some place) : place = .asking := by
    rcases soleBranch_cases (some .asking) branch with hnone | hsome
    · cases hnone.symm.trans h
    · exact Option.some.inj (h.symm.trans hsome)
  have hupdates (h : freshBranches.connects branch = some place) : place = .asking := by
    rcases connects_freshBranches branch with hnone | hsome
    · cases hnone.symm.trans h
    · exact Option.some.inj (h.symm.trans hsome)
  have hsole {next : ConnectPlace} (h : soleBranch (some next) branch = some place) :
      branch = 0 ∧ next = place := (soleBranch_eq_some h).imp id Option.some.inj
  have hsends {line : String} {here next : SendPlace} (hmove : SendMove strand line c here more (.place next))
      (h : soleBranch next.connectPlace? branch = some place) :
      ∃ was, soleBranch here.connectPlace? branch = some was ∧ ConnectMove strand c was more (.place place) := by
    obtain ⟨rfl, hnext⟩ := soleBranch_eq_some h
    obtain ⟨was, hwas, hmove⟩ := hmove.connectPlace?_eq hnext
    exact ⟨was, hwas ▸ rfl, hmove⟩
  cases hmove with
  | receive hmove =>
    cases hmove with
    | begin => exact .inr (.inl (hasks hplace))
    | connecting hmove =>
      obtain ⟨rfl, rfl⟩ := hsole hplace
      exact .inr (.inr ⟨_, rfl, hmove⟩)
    | _ => cases hplace
  | refresh hmove =>
    cases hmove with
    | update => exact .inr (.inl (hupdates hplace))
    | updating hmove => exact (hmove.connects_cases hplace).imp id .inr
    | _ => cases hplace
  | call hmove =>
    cases hmove with
    | begin hmove =>
      cases hmove with
      | connect | send | ask => exact .inr (.inl (hasks hplace))
      | update => exact .inr (.inl (hupdates hplace))
      | _ => cases hplace
    | connecting hmove =>
      obtain ⟨rfl, rfl⟩ := hsole hplace
      exact .inr (.inr ⟨_, rfl, hmove⟩)
    | sending hmove | requesting hmove => exact .inr (.inr (hsends hmove hplace))
    | updating hmove => exact (hmove.connects_cases hplace).imp id .inr
    | _ => cases hplace

/-- The same for any action: whoever stands somewhere stood there before, has begun to ask for the lock, or
has made a step of connecting. -/
theorem connectAt_perform?_cases (h : c.perform? action = some d) (hplace : d.connectAt strand = some place) :
    c.connectAt strand = some place ∨ place = .asking ∨
      ∃ mover turn here more, action = .go mover turn ∧ mover.task = strand.task ∧
        c.connectAt strand = some here ∧ ConnectMove mover c here more (.place place) := by
  obtain ⟨state, hstate, hat⟩ := Option.bind_eq_some_iff.mp hplace
  rcases task_perform?_cases h hstate with hsame | ⟨hidle, -⟩ | ⟨mover, turn, was, more, haction, htask, hwas, hmove⟩
  · exact .inl ((connectAt_of_task hsame).trans hat)
  · cases (Task.connectAt_of_isIdle hidle strand.branch).symm.trans hat
  · rw [connectAt_of_task hwas]
    refine (hmove.connectAt_cases hat).imp id (Or.imp id fun ⟨here, hhere, hmove⟩ => ?_)
    exact ⟨mover, turn, here, more, haction, htask, hhere, hmove⟩

/-! ## Dials that take no time -/

/-- Nobody is in a dial, and whoever pauses after one hears of it when the client is closed. -/
structure Prompt (c : Client) : Prop where
  prompt : c.link.dialsSuspend = false
  dialing : ∀ strand, c.connectAt strand ≠ some .dialing
  heard : c.closed = true → c.shutdown = true ∨ ∀ strand wake, c.connectAt strand ≠ some (.pausing wake)

theorem task_of_beginsClose (h : c.beginsClose action = true) :
    ∃ strand, action = .go strand .own ∧ c.tasks[strand.task]? = some (.call .close .fresh) := by
  unfold beginsClose at h
  split at h
  next strand => exact ⟨strand, rfl, of_decide_eq_true h⟩
  next => cases h

theorem hasListener_of_connectAt {wake : Nat} (h : c.connectAt strand = some (.pausing wake)) :
    c.hasListener = true := by
  obtain ⟨state, hstate, hat⟩ := Option.bind_eq_some_iff.mp h
  exact List.any_eq_true.mpr ⟨state, List.mem_of_getElem? hstate, Task.listens_of_connectAt hat⟩

theorem Prompt.perform? (hc : Prompt c) (h : c.perform? action = some d) : Prompt d := by
  refine ⟨?_, fun strand hplace => ?_, fun hclosed => ?_⟩
  · have hsuspends : d.link.dialsSuspend = c.link.dialsSuspend :=
      congrArg (fun habits => habits.2.2.1) (habits_perform? h)
    exact hsuspends.trans hc.prompt
  · rcases connectAt_perform?_cases h hplace with hsame | hasks | ⟨mover, turn, here, more, -, -, -, hmove⟩
    · exact hc.dialing strand hsame
    · cases hasks
    · cases hmove with
      | dial _ hsuspends => cases hc.prompt.symm.trans hsuspends
  · obtain ⟨hcloses, hkept⟩ := closing_of_perform? h
    rw [hcloses, Bool.or_eq_true] at hclosed
    by_cases hshutdown : d.shutdown = true
    · exact .inl hshutdown
    refine .inr fun strand wake hplace => hshutdown ?_
    rw [hkept, Bool.or_eq_true]
    rcases connectAt_perform?_cases h hplace with hsame | hasks | ⟨mover, turn, here, more, rfl, htask, hhere, hmove⟩
    · rcases hclosed with hclosed | hbegins
      · exact .inl ((hc.heard hclosed).resolve_right fun hnone => hnone strand wake hsame)
      · exact .inr ((Bool.and_eq_true _ _).mpr ⟨hbegins, hasListener_of_connectAt hsame⟩)
    · cases hasks
    · -- A dial that fails is one that somebody began in this step, while the client was open.
      cases hmove with
      | fail hdials =>
        rcases hdials with ⟨rfl, -⟩ | ⟨-, hopen, -⟩
        · exact absurd hhere (hc.dialing strand)
        · obtain ⟨other, hother, hclose⟩ := task_of_beginsClose (hclosed.resolve_left (by rw [hopen]; exact nofun))
          cases hother
          rw [htask] at hclose
          cases (connectAt_of_task hclose).symm.trans hhere

theorem prompt_new (settings : ClientSettings) (handlers : Handlers) {link : Link}
    (hlink : link.dialsSuspend = false) : Prompt (new settings handlers link) where
  prompt := hlink
  dialing _ := nofun
  heard := nofun

end Client

end AlarmPanel
