import AlarmPanel.Client.Background
import AlarmPanel.Client.Calls

/-!
# Runs of the client

`ClientAction` lists what can happen to a client, one step at a time; a history is a list of actions, and
`Client.perform?` says which ones are possible. Any task that can go on may go on next. Time passes only
when no task can, and not beyond the next time that one waits for. `settle` and `advance` are the history
in which the tasks take turns in the order in which they come to be able to go on.
-/

namespace AlarmPanel

inductive ClientAction
  | go (strand : Strand) (turn : Turn)
  | call (call : Call)
  /-- Something arrives on the link. -/
  | arrive (item : Incoming)
  /-- The link goes down of itself. -/
  | lose
  | setRefusals (count : Nat)
  | setUnanswered (count : Nat)
  | setWriteFaults (count : Nat)
  | pass (millis : Nat)
  deriving DecidableEq

namespace Client

/-- The client after a step of a strand, if the strand can make it now. -/
def go? (strand : Strand) (turn : Turn) (c : Client) : Option Client :=
  match c.tasks[strand.task]? with
  | none => none
  | some task =>
    if strand.branch ∈ task.branches then
      match task with
      | .receive place => c.receiveStep? strand turn place
      | .refresh place => c.refreshStep? strand turn place
      | .call call place => c.callStep? strand turn call place
      | .over _ _ => none
    else none

/-- The steps that a task may be able to make without the link. -/
def stepsOf (task : Nat) (c : Client) : List (Strand × Turn) :=
  match c.tasks[task]? with
  | some state =>
    [Turn.signal, Turn.own].flatMap fun turn =>
      state.branches.map fun branch => (⟨task, branch⟩, turn)
  | none => []

/-- The client after the first step that a task can make now. -/
def goOn? (task : Nat) (c : Client) : Option Client :=
  (c.stepsOf task).findSome? fun (strand, turn) => c.go? strand turn

/-- The tasks that can go on now. -/
def ready (c : Client) : List Nat :=
  (List.range c.tasks.length).filter fun task => (c.goOn? task).isSome

/-- The times that tasks wait for. -/
def deadlines (c : Client) : List Nat := c.tasks.flatMap Task.deadlines

/-- The client after the action, if it can happen now. -/
def perform? (action : ClientAction) (c : Client) : Option Client :=
  match action with
  | .go strand turn => c.go? strand turn
  | .call call => some (c.addTask (.call call .fresh))
  | .arrive item => some { c with link := { c.link with incoming := c.link.incoming ++ [item] } }
  | .lose => some { c with link := c.link.takeDown }
  | .setRefusals count => some { c with link := { c.link with refusals := count } }
  | .setUnanswered count => some { c with link := { c.link with unanswered := count } }
  | .setWriteFaults count => some { c with link := { c.link with writeFaults := count } }
  | .pass millis =>
    if c.ready.isEmpty && c.deadlines.all fun deadline => c.now + millis ≤ deadline then
      some { c with now := c.now + millis }
    else none

/-- The client after a history, if each action of it can happen in its turn. -/
def performAll? (actions : List ClientAction) (c : Client) : Option Client :=
  actions.foldlM (fun d action => d.perform? action) c

/-! ## Tasks in turn -/

/-- Lets tasks go on, up to so many steps and changes of turn. The first of those in `waiting` goes on
until it cannot; tasks that come to be able to go on line up behind the others. -/
def settleWithin : Nat → List Nat → Client → Client
  | 0, _, c => c
  | _ + 1, [], c => c
  | n + 1, task :: others, c =>
    match c.goOn? task with
    | some d =>
      let waiting := task :: others
      settleWithin n (waiting ++ d.ready.filter fun t => !waiting.contains t) d
    | none => settleWithin n others c

/-- Enough steps for all tasks to come to a halt. A task makes a bounded number of them until it waits for
time to pass, two more for each dial that fails, and one for each item that comes in. -/
def settleBound (c : Client) : Nat :=
  200 * (c.tasks.length + 3) +
    8 * (c.link.incoming.length + c.link.refusals + c.link.unanswered)

/-- Lets tasks go on until all of them wait. -/
def settle (c : Client) : Client := settleWithin c.settleBound c.ready c

/-- The next time after now that a task waits for. -/
def nextDeadline? (c : Client) : Option Nat := (c.deadlines.filter (c.now < ·)).min?

/-- Lets time pass up to `target`, and tasks go on in their time before it; at most `n` times may be
stopped at. -/
def advanceWithin (target : Nat) : Nat → Client → Client
  | 0, c => c
  | n + 1, c =>
    let stop := c.nextDeadline?.elim target (min target)
    match c.perform? (.pass (stop - c.now)) with
    | some d => if stop = target then d else advanceWithin target n d.settle
    | none => c

/-- Lets so many milliseconds pass, and tasks go on in their time. -/
def advance (millis : Nat) (c : Client) : Client :=
  (advanceWithin (c.now + millis) (millis + 1) c).settle

/-! ## What the schedule does is a history -/

theorem performAll?_append (as bs : List ClientAction) (c : Client) :
    c.performAll? (as ++ bs) = (c.performAll? as).bind fun d => d.performAll? bs := by
  simp [performAll?, List.foldlM_append]

/-- A history may be followed by another one. -/
theorem performAll?_trans {as bs : List ClientAction} {c d e : Client}
    (has : c.performAll? as = some d) (hbs : d.performAll? bs = some e) :
    c.performAll? (as ++ bs) = some e := by
  rw [performAll?_append, has, Option.bind_some, hbs]

theorem exists_action_of_goOn? {task : Nat} {c d : Client} (h : c.goOn? task = some d) :
    ∃ action, c.performAll? [action] = some d := by
  obtain ⟨⟨strand, turn⟩, -, hgo⟩ := List.exists_of_findSome?_eq_some h
  exact ⟨.go strand turn, by simp [performAll?, perform?, hgo]⟩

theorem exists_history_settleWithin (n : Nat) (waiting : List Nat) (c : Client) :
    ∃ actions, c.performAll? actions = some (settleWithin n waiting c) := by
  induction n generalizing waiting c with
  | zero => exact ⟨[], rfl⟩
  | succ n ih =>
    cases waiting with
    | nil => exact ⟨[], rfl⟩
    | cons task others =>
      rw [settleWithin]
      split
      next d hd =>
        obtain ⟨action, ha⟩ := exists_action_of_goOn? hd
        obtain ⟨actions, has⟩ :=
          ih (task :: others ++ d.ready.filter fun t => !(task :: others).contains t) d
        exact ⟨[action] ++ actions, performAll?_trans ha has⟩
      next => exact ih others c

/-- Letting the tasks take turns is one of the histories of the client. -/
theorem exists_history_settle (c : Client) :
    ∃ actions, c.performAll? actions = some c.settle :=
  exists_history_settleWithin _ _ _

theorem exists_history_advanceWithin (target n : Nat) (c : Client) :
    ∃ actions, c.performAll? actions = some (advanceWithin target n c) := by
  induction n generalizing c with
  | zero => exact ⟨[], rfl⟩
  | succ n ih =>
    rw [advanceWithin]
    split
    next d hd =>
      have hpass : c.performAll? [.pass (c.nextDeadline?.elim target (min target) - c.now)] =
          some d := by
        simp [performAll?, hd]
      split
      next => exact ⟨_, hpass⟩
      next =>
        obtain ⟨as, has⟩ := exists_history_settle d
        obtain ⟨bs, hbs⟩ := ih d.settle
        exact ⟨_, performAll?_trans (performAll?_trans hpass has) hbs⟩
    next => exact ⟨[], rfl⟩

/-- So is letting time pass. -/
theorem exists_history_advance (millis : Nat) (c : Client) :
    ∃ actions, c.performAll? actions = some (c.advance millis) := by
  obtain ⟨as, has⟩ := exists_history_advanceWithin (c.now + millis) (millis + 1) c
  obtain ⟨bs, hbs⟩ := exists_history_settle (advanceWithin (c.now + millis) (millis + 1) c)
  exact ⟨as ++ bs, performAll?_trans has hbs⟩

end Client

end AlarmPanel
