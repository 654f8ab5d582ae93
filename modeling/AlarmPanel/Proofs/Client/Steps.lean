import AlarmPanel.Proofs.Client.Ledger
import AlarmPanel.Proofs.Client.Request

/-!
# What a step does to the ledger

Whatever the steps of a task do to the link and to the locks, to the ledger they do one of few things.
`Client.Deed` lists them, and `Client.stride_of_go?` says that the list is complete: beside its deed a step
puts the task at its next place, and changes nothing else on the ledger.
-/

namespace AlarmPanel

/-- The background tasks that a task may give up or wait for. -/
def Task.handles? : Task → Option Handles
  | .call _ (.launched handles) => some handles
  | .call _ (.joining handles) => some handles
  | .call _ (.stoppingRefresh handles _) => some handles
  | .call _ (.stoppingReceive handles _) => some handles
  | _ => none

namespace Client

/-- What the step of a task that goes on from `was` to `now` does to the client `c`, beside putting the task
at its place: the client after the deed is the last argument. -/
inductive Deed (c : Client) : Task → Task → Client → Prop
  /-- Nothing: this is how nearly all steps are. -/
  | nothing {was now : Task} (hnow : now.handles? = none ∨ now.handles? = was.handles?) : Deed c was now c
  /-- The receive task takes in a line. -/
  | takeIn {now : Task} (place : ReceivePlace) (bytes : List UInt8) (hnow : now.handles? = none) :
      Deed c (.receive place) now (c.receiveLine bytes)
  /-- A status request registers. -/
  | register {command : String} {code : UInt8} (call : Call) (patience : Duration) (line : String)
      (hcode : statusCode command = .ok code) :
      Deed c (.call call .fresh)
        (.call call (.requesting (c.shareSlot code).2 command patience line (.connecting .asking)))
        (c.shareSlot code).1
  /-- The background tasks are launched. -/
  | launch (call : Call) :
      Deed c (.call call .fresh) (.call call (.launched ⟨c.tasks.length, c.tasks.length + 1⟩))
        ((c.addTask (.receive .fresh)).addTask (.refresh .fresh))
  /-- The handles of the background tasks are kept. -/
  | keep {now : Task} (call : Call) (handles : Handles) (hnow : now.handles? = none) :
      Deed c (.call call (.launched handles)) now { c with handles := some handles }
  /-- The handles are taken. -/
  | take {was now : Task} {handles : Handles} (hhandles : c.handles = some handles)
      (hnow : now.handles? = some handles) : Deed c was now { c with handles := none }
  /-- A background task is ended. -/
  | abort {was now : Task} {handles : Handles} (task : Nat) (hwas : was.handles? = some handles)
      (htask : task = handles.refresh ∨ task = handles.receive)
      (hnow : now.handles? = none ∨ now.handles? = was.handles?) : Deed c was now (c.abort task)

/-- The client `d` is like `c` after a step in which the task went on from `was`, as far as the ledger
shows. -/
def Stride (task : Nat) (was : Task) (c d : Client) : Prop :=
  ∃ now e, Deed c was now e ∧ now.role = was.role ∧ d.ledger = (e.setTask task now).ledger

variable {task : Nat} {was now : Task} {c d e : Client}

theorem Stride.congr (hledger : d.ledger = e.ledger) (h : Stride task was c e) : Stride task was c d := by
  obtain ⟨now, f, hdeed, hrole, he⟩ := h
  exact ⟨now, f, hdeed, hrole, hledger.trans he⟩

/-- A step that only puts the task at its next place. -/
theorem Stride.goOn (he : e.ledger = c.ledger) (hrole : now.role = was.role)
    (hnow : now.handles? = none ∨ now.handles? = was.handles?) : Stride task was c (e.setTask task now) :=
  ⟨now, c, .nothing hnow, hrole, ledger_setTask_congr he task now⟩

/-- A step that only ends the task. -/
theorem Stride.finish {role : Role} (he : e.ledger = c.ledger) (hrole : role = was.role)
    (ending : Ending) : Stride task was c (e.finish task role ending) :=
  ⟨.over role ending, c, .nothing (.inl rfl), hrole, ledger_setTask_congr he task _⟩

/-! ## The background tasks -/

/-- Losing the link and going on to read put the receive task at its next place, and that is all. -/
theorem exists_loseLink (task : Nat) (c : Client) :
    ∃ now : Task, now.role = .receive ∧ now.handles? = none ∧
      (c.loseLink task).ledger = (c.setTask task now).ledger := by
  unfold loseLink
  split
  next => exact ⟨.over .receive .stopped, rfl, rfl, rfl⟩
  next => exact ⟨.receive .fresh, rfl, rfl, ledger_setTask_congr (ledger_note rfl c) ..⟩

theorem exists_beginRead (task : Nat) (c : Client) :
    ∃ now : Task, now.role = .receive ∧ now.handles? = none ∧
      (c.beginRead task).ledger = (c.setTask task now).ledger := by
  unfold beginRead
  split
  next => exact ⟨.receive (.reading c.link.number), rfl, rfl, rfl⟩
  next => exact exists_loseLink task c

theorem stride_of_receiveStep? {strand : Strand} {turn : Turn} {place : ReceivePlace} {c d : Client}
    (h : c.receiveStep? strand turn place = some d) : Stride strand.task (.receive place) c d := by
  unfold receiveStep? at h
  dsimp only at h
  split at h
  next =>
    split at h
    next => cases h; exact .finish rfl rfl _
    next => cases h; exact .goOn rfl rfl (.inl rfl)
  next turn place =>
    obtain ⟨⟨e, next⟩, hstep, rfl⟩ := Option.map_eq_some_iff.mp h
    have he : e.ledger = c.ledger := ledger_connectStep? hstep
    rcases next with place | (_ | ⟨⟩) | _
    · exact .goOn he rfl (.inl rfl)
    · exact .finish he rfl _
    · obtain ⟨now, hrole, hnow, hledger⟩ := exists_beginRead strand.task e
      exact .congr hledger (.goOn he hrole (.inl hnow))
    · exact .finish he rfl _
  next number =>
    -- The read itself touches the link only; what it has read makes the deed.
    obtain ⟨⟨link, outcome⟩, -, rfl⟩ := Option.map_eq_some_iff.mp h
    have hlink : ({ c with link } : Client).ledger = c.ledger := rfl
    cases outcome with
    | line bytes =>
      obtain ⟨now, hrole, hnow, hledger⟩ :=
        exists_beginRead strand.task ({ c with link }.receiveLine bytes)
      have hline := ledger_setTask_congr (ledger_receiveLine_congr hlink bytes) strand.task now
      exact ⟨now, _, .takeIn _ bytes hnow, hrole, hledger.trans hline⟩
    | gone =>
      obtain ⟨now, hrole, hnow, hledger⟩ := exists_loseLink strand.task { c with link }
      exact .congr hledger (.goOn hlink hrole (.inl hnow))
  next => cases h

theorem stride_of_refreshStep? {strand : Strand} {turn : Turn} {place : RefreshPlace} {c d : Client}
    (h : c.refreshStep? strand turn place = some d) : Stride strand.task (.refresh place) c d := by
  unfold refreshStep? at h
  dsimp only at h
  split at h
  next => cases h; exact .goOn rfl rfl (.inl rfl)
  next =>
    split at h
    next =>
      split at h
      next => cases h; exact .finish rfl rfl _
      next => cases h; exact .goOn rfl rfl (.inl rfl)
    next => cases h
  next =>
    split at h
    next => cases h; exact .finish rfl rfl _
    next => cases h
  next turn branches =>
    split at h
    next =>
      split at h
      next => cases h; exact .finish rfl rfl _
      next => cases h
    next =>
      obtain ⟨⟨e, next⟩, hstep, rfl⟩ := Option.map_eq_some_iff.mp h
      have he : e.ledger = c.ledger := ledger_updateStep? hstep
      rcases next with place | result | _
      · exact .goOn he rfl (.inl rfl)
      · exact .goOn  he rfl (.inl rfl)
      · exact .finish he rfl _
  next => cases h

/-! ## Calls -/

theorem beginSend_stride {call : Call} (task : Nat) (command : Except Error String) (c : Client) :
    Stride task (.call call .fresh) c (c.beginSend task call command) := by
  unfold beginSend
  split
  next => exact .goOn rfl rfl (.inl rfl)
  next => exact .finish rfl rfl _

/-- A valid status request registers and begins to send. -/
theorem beginAsk_of_statusCode {call : Call} {command : String} {code : UInt8} (task : Nat)
    (patience : Duration) (c : Client) (h : statusCode command = .ok code) :
    c.beginAsk task call command patience
      = (c.shareSlot code).1.setTask task
          (.call call (.requesting (c.shareSlot code).2 command patience (requestLine command)
            (.connecting .asking))) := by
  simp only [beginAsk, h, requestLine?_of_statusCode h]

theorem beginAsk_stride {call : Call} (task : Nat) (command : String) (patience : Duration)
    (c : Client) : Stride task (.call call .fresh) c (c.beginAsk task call command patience) := by
  cases h : statusCode command with
  | ok code =>
    rw [beginAsk_of_statusCode task patience c h]
    exact ⟨_, _, .register call patience (requestLine command) h, rfl, rfl⟩
  | error e =>
    simp only [beginAsk, h]
    exact .finish rfl rfl _

theorem launch_stride {call : Call} (task : Nat) (c : Client) :
    Stride task (.call call .fresh) c (c.launch task call) :=
  ⟨_, _, .launch call, rfl, rfl⟩

theorem beginCall_stride (task : Nat) (call : Call) (c : Client) :
    Stride task (.call call .fresh) c (c.beginCall task call) := by
  cases call with
  | start =>
    simp only [beginCall]
    split
    next => exact .finish rfl rfl _
    next => exact launch_stride task c
  | keepalive =>
    simp only [beginCall]
    split
    next => exact .goOn rfl rfl (.inl rfl)
    next => exact launch_stride task c
  | connect => exact .goOn rfl rfl (.inl rfl)
  | close =>
    have hshut : c.shutDown.ledger = c.ledger := rfl
    exact .goOn hshut rfl (.inl rfl)
  | ask command patience => exact beginAsk_stride task command patience c
  | update => exact .goOn rfl rfl (.inl rfl)
  | panelInfo =>
    simp only [beginCall]
    split
    next => exact .finish rfl rfl _
    next => exact beginAsk_stride task _ _ c
  | refreshAuxOutputs => exact beginAsk_stride task _ _ c
  | zone number => exact .finish rfl rfl _
  | send | armAway | armHome | disarm | panic | setAuxOutput => exact beginSend_stride task _ c

theorem collect_stride {call : Call} {place : Handles → CallPlace}
    (hplace : ∀ handles, (Task.call call (place handles)).handles? = some handles) (task : Nat)
    (c : Client) : Stride task (.call call .collecting) c (c.collect task call place) := by
  unfold collect
  split
  next handles hhandles => exact ⟨_, _, .take hhandles (hplace handles), rfl, rfl⟩
  next => exact .finish rfl rfl _

theorem stride_of_callStep? {strand : Strand} {turn : Turn} {call : Call} {place : CallPlace} {c d : Client}
    (h : c.callStep? strand turn call place = some d) : Stride strand.task (.call call place) c d := by
  unfold callStep? at h
  dsimp only at h
  split at h
  next => cases h; exact beginCall_stride strand.task call c
  next turn place =>
    obtain ⟨⟨e, next⟩, hstep, rfl⟩ := Option.map_eq_some_iff.mp h
    have he : e.ledger = c.ledger := ledger_connectStep? hstep
    rcases next with place | result | _
    · exact .goOn he rfl (.inl rfl)
    · exact .finish he rfl _
    · exact .finish he rfl _
  next turn line place =>
    obtain ⟨⟨e, next⟩, hstep, rfl⟩ := Option.map_eq_some_iff.mp h
    have he : e.ledger = c.ledger := ledger_sendStep? hstep
    rcases next with place | result | _
    · exact .goOn he rfl (.inl rfl)
    · exact .finish he rfl _
    · exact .finish he rfl _
  next turn slot command patience line place =>
    obtain ⟨⟨e, next⟩, hstep, rfl⟩ := Option.map_eq_some_iff.mp h
    have he : e.ledger = c.ledger := ledger_sendStep? hstep
    rcases next with place | (_ | ⟨⟩) | _
    · exact .goOn he rfl (.inl rfl)
    · exact .finish he rfl _
    · exact .goOn he rfl (.inl rfl)
    · exact .finish he rfl _
  next slot command deadline =>
    unfold awaitStep? at h
    split at h
    next => cases h; exact .finish rfl rfl _
    next =>
      split at h
      next => cases h; exact .finish rfl rfl _
      next =>
        split at h
        next => cases h; exact .finish rfl rfl _
        next => cases h
  next turn branches =>
    obtain ⟨⟨e, next⟩, hstep, rfl⟩ := Option.map_eq_some_iff.mp h
    have he : e.ledger = c.ledger := ledger_updateStep? hstep
    rcases next with place | result | _
    · exact .goOn he rfl (.inl rfl)
    · exact .finish he rfl _
    · exact .finish he rfl _
  next handles =>
    -- The handles are kept before the call goes on, so this is no mere change of place.
    split at h
    next => cases h; exact ⟨.call .keepalive .collecting, _, .keep _ handles rfl, rfl, rfl⟩
    next => cases h; exact ⟨.over (.call call) (.answered .done), _, .keep _ handles rfl, rfl, rfl⟩
  next => cases h; exact .goOn (ledger_closeLink c) rfl (.inl rfl)
  next =>
    split at h
    next => cases h; exact collect_stride (fun _ => rfl) strand.task c
    next => cases h; exact collect_stride (fun _ => rfl) strand.task c
  next handles =>
    split at h
    next => cases h; exact .finish rfl rfl _
    next => cases h
  next handles deadline =>
    split at h
    next => cases h; exact .goOn rfl rfl (.inr rfl)
    next =>
      split at h
      next =>
        cases h
        exact ⟨.call call (.stoppingReceive handles _), _,
          .abort handles.refresh rfl (.inl rfl) (.inr rfl), rfl, rfl⟩
      next => cases h
  next handles deadline =>
    split at h
    next => cases h; exact .finish rfl rfl _
    next =>
      split at h
      next =>
        cases h
        exact ⟨.over (.call call) (.answered .done), _,
          .abort handles.receive rfl (.inr rfl) (.inl rfl), rfl, rfl⟩
      next => cases h
  next => cases h

/-! ## Tasks -/

/-- Every step of a task is a stride: it makes one deed and puts the task at its next place. -/
theorem stride_of_go? {strand : Strand} {turn : Turn} {c d : Client} (h : c.go? strand turn = some d) :
    ∃ was, c.tasks[strand.task]? = some was ∧ was.isOver = false ∧ Stride strand.task was c d := by
  unfold go? at h
  split at h
  next => cases h
  next was hwas =>
    split at h
    next =>
      refine ⟨was, hwas, ?_⟩
      split at h
      next => exact ⟨rfl, stride_of_receiveStep? h⟩
      next => exact ⟨rfl, stride_of_refreshStep? h⟩
      next => exact ⟨rfl, stride_of_callStep? h⟩
      next => cases h
    next => cases h

/-! ## The only strand of a call -/

/-- A step of a call that carries on nothing side by side is a step of its only strand. -/
theorem go?_call {strand : Strand} {turn : Turn} {call : Call} {place : CallPlace} {c d : Client}
    (h : c.go? strand turn = some d) (hstate : c.tasks[strand.task]? = some (.call call place))
    (hbranches : (Task.call call place).branches = [0]) :
    strand = ⟨strand.task, 0⟩ ∧ c.callStep? strand turn call place = some d := by
  unfold go? at h
  rw [hstate] at h
  dsimp only at h
  rw [hbranches] at h
  split at h
  next hbranch =>
    refine ⟨?_, h⟩
    rw [← List.mem_singleton.mp hbranch]
  next => cases h

theorem go?_of_callStep? {task : Nat} {turn : Turn} {call : Call} {place : CallPlace} {c : Client}
    (hstate : c.tasks[task]? = some (.call call place))
    (hbranches : (Task.call call place).branches = [0]) :
    c.go? ⟨task, 0⟩ turn = c.callStep? ⟨task, 0⟩ turn call place := by
  unfold go?
  dsimp only
  rw [hstate]
  dsimp only
  rw [if_pos (by rw [hbranches]; exact List.mem_singleton_self 0)]

theorem isSome_go?_iff {task : Nat} {state : Task} (h : c.tasks[task]? = some state) (branch : Nat)
    (turn : Turn) :
    (c.go? ⟨task, branch⟩ turn).isSome = true ↔
      branch ∈ state.branches ∧ (match state with
        | .receive place => c.receiveStep? ⟨task, branch⟩ turn place
        | .refresh place => c.refreshStep? ⟨task, branch⟩ turn place
        | .call call place => c.callStep? ⟨task, branch⟩ turn call place
        | .over _ _ => none).isSome = true := by
  unfold go?
  dsimp only
  rw [h]
  dsimp only
  split
  next hbranch => exact ⟨fun hsome => ⟨hbranch, hsome⟩, fun hsome => hsome.2⟩
  next hbranch => exact ⟨fun hsome => (nomatch hsome), fun hsome => absurd hsome.1 hbranch⟩

/-- What goes on is a strand of a task. -/
theorem mem_branches_of_go? {strand : Strand} {turn : Turn} {c d : Client}
    (h : c.go? strand turn = some d) :
    ∃ state, c.tasks[strand.task]? = some state ∧ strand.branch ∈ state.branches := by
  unfold go? at h
  split at h
  next => cases h
  next state hstate =>
    split at h
    next hbranch => exact ⟨state, hstate, hbranch⟩
    next => cases h

/-- A task is ready while a strand of it can go on without the link. -/
theorem mem_ready_of_go? {strand : Strand} {turn : Turn} {c d : Client} (hturn : turn ≠ .link)
    (hgo : c.go? strand turn = some d) : strand.task ∈ c.ready := by
  obtain ⟨state, hstate, hbranch⟩ := mem_branches_of_go? hgo
  have hstep : (strand, turn) ∈ c.stepsOf strand.task := by
    simp only [stepsOf, hstate, List.mem_flatMap, List.mem_map]
    refine ⟨turn, ?_, strand.branch, hbranch, rfl⟩
    cases turn with
    | own | signal => decide
    | link => exact absurd rfl hturn
  refine List.mem_filter.mpr ⟨List.mem_range.mpr (List.getElem?_eq_some_iff.mp hstate).1, ?_⟩
  exact List.findSome?_isSome_iff.mpr ⟨(strand, turn), hstep, by simp [hgo]⟩

/-- Time does not pass while a strand can go on without the link. -/
theorem perform?_pass_of_go? {strand : Strand} {turn : Turn} {c d : Client} (hturn : turn ≠ .link)
    (hgo : c.go? strand turn = some d) (millis : Nat) : c.perform? (.pass millis) = none := by
  have hready := mem_ready_of_go? hturn hgo
  have hsome : c.ready.isEmpty = false := by
    cases h : c.ready with
    | nil => rw [h] at hready; cases hready
    | cons => rfl
  simp [perform?, hsome]

theorem tasks_setTask_self {task : Nat} {was : Task} {c d : Client} (hd : d.ledger = c.ledger)
    (hwas : c.tasks[task]? = some was) (now : Task) : (d.setTask task now).tasks[task]? = some now := by
  show (d.tasks.set task now)[task]? = some now
  rw [tasks_eq_of_ledger hd]
  exact List.getElem?_set_self (List.getElem?_eq_some_iff.mp hwas).1

/-! ## Histories -/

/-- What happens is a step of a task or a new call, or it is not on the ledger. -/
theorem perform?_cases {action : ClientAction} {c d : Client} (h : c.perform? action = some d) :
    (∃ strand turn, action = .go strand turn ∧ c.go? strand turn = some d) ∨
      (∃ call, d = c.addTask (.call call .fresh)) ∨ d.ledger = c.ledger := by
  cases action with
  | go strand turn => exact .inl ⟨strand, turn, rfl, h⟩
  | call call =>
    cases h
    exact .inr (.inl ⟨call, rfl⟩)
  | pass millis =>
    simp only [perform?] at h
    split at h
    next =>
      cases h
      exact .inr (.inr rfl)
    next => cases h
  | arrive | lose | setRefusals | setUnanswered | setWriteFaults =>
    cases h
    exact .inr (.inr rfl)

/-- A property that every step keeps holds after each history. -/
theorem performAll?_induction {P : Client → Prop}
    (hstep : ∀ action c d, P c → c.perform? action = some d → P d) {actions : List ClientAction}
    {c d : Client} (h : c.performAll? actions = some d) (hc : P c) : P d := by
  induction actions generalizing c with
  | nil =>
    cases h
    exact hc
  | cons action actions ih =>
    obtain ⟨e, he, hd⟩ := Option.bind_eq_some_iff.mp h
    exact ih hd (hstep action c e hc he)

end Client

end AlarmPanel
