import AlarmPanel.Broadcast
import AlarmPanel.Client.Run

/-!
# Scripts for the client

A script calls the client and works on its link step by step, and after each step shows what a bystander
sees: the calls that have been answered, what has been written and reported, and what is known of the panel.
-/

namespace AlarmPanel

/-- One step of a script. -/
inductive ClientStep
  | call (call : Call)
  /-- Things that happen to the link. -/
  | happen (actions : List ClientAction)
  | advance (millis : Nat)
  deriving DecidableEq

/-- What a bystander sees after a step. -/
structure ClientView where
  /-- The calls that were answered in the step, by the number of the step that made them. -/
  answered : List (Nat × Answer)
  /-- The lines that were written, in alphabetical order. -/
  written : List String
  linkUp : Bool
  /-- How often the client has dialed, and how often it has closed the link. -/
  dials : Nat
  closes : Nat
  called : List Report
  notices : Heard Notice
  alarm : Alarm
  closed : Bool

/-- A script under way: the client, and the calls that have not been answered, by step and task. A call
that dies is among them to the end. -/
structure Rehearsal where
  client : Client
  waiting : List (Nat × Nat)

namespace Client

/-- What the client has done since its log had this length, the earliest first. -/
def effectsSince (length : Nat) (c : Client) : List Effect :=
  ((c.log.take (c.log.length - length)).map (·.effect)).reverse

def dials (c : Client) : Nat := c.log.countP fun entry => entry.effect matches .dialing _

def closes (c : Client) : Nat := c.log.countP fun entry => entry.effect matches .closedLink

/-- How many notices a subscriber may fall behind. -/
def noticeCapacity (c : Client) : Nat := powerOfTwoAbove c.settings.noticeCapacity.toNat

/-- The answer that a task ended with, if it has. -/
def answer? (task : Nat) (c : Client) : Option Answer :=
  match c.tasks[task]? with
  | some (.over _ (.answered answer)) => some answer
  | _ => none

/-- The client after a step, before anything else goes on. What cannot happen does not. -/
def take (step : ClientStep) (c : Client) : Client :=
  match step with
  | .call call => (c.perform? (.call call)).getD c
  | .happen actions => actions.foldl (fun d action => (d.perform? action).getD d) c
  | .advance millis => c.advance millis

end Client

namespace Rehearsal

/-- The view after a step that began with a log of this length. -/
def view (seen : Nat) (answered : List (Nat × Answer)) (c : Client) : ClientView :=
  let effects := c.effectsSince seen
  { answered
    written := (effects.filterMap fun
      | .wrote _ line => some line
      | _ => none).mergeSort fun a b => decide (a ≤ b)
    linkUp := c.link.up
    dials := c.dials
    closes := c.closes
    called := effects.filterMap fun
      | .called report _ => some report
      | _ => none
    notices := hear c.noticeCapacity (effects.filterMap fun
      | .notified notice => some notice
      | _ => none)
    alarm := c.alarm
    closed := c.closed }

/-- The script after the step with this number, once all tasks wait again. -/
def step (number : Nat) (s : ClientStep) (r : Rehearsal) : Rehearsal × ClientView :=
  let waiting := match s with
    | .call _ => r.waiting ++ [(number, r.client.tasks.length)]
    | _ => r.waiting
  let client := (r.client.take s).settle
  let answered := waiting.filterMap fun (number, task) =>
    (client.answer? task).map fun answer => (number, answer)
  let still := waiting.filter fun (_, task) => (client.answer? task).isNone
  (⟨client, still⟩, view r.client.log.length answered client)

/-- The views after each step of a script, numbered from `number` on. -/
def run : Nat → List ClientStep → Rehearsal → List ClientView
  | _, [], _ => []
  | number, s :: steps, r =>
    let (next, seen) := r.step number s
    seen :: run (number + 1) steps next

end Rehearsal

/-- The views after each step of a script for a client. -/
def Client.runScript (steps : List ClientStep) (c : Client) : List ClientView :=
  Rehearsal.run 0 steps ⟨c, []⟩

end AlarmPanel
