import AlarmPanel.Panel.Command

/-!
# Runs of the simulated panel

`PanelAction` lists what can happen to a panel, one critical section at a time; a history is a list of
actions, and `SimulatedPanel.perform?` says which ones are possible. Time passes only up to the next end of
a delay or of a rest, so nothing that is due is passed over. `settle` and `advance` are the history in which
everything that is due happens at once.
-/

namespace AlarmPanel

/-- One thing that happens to a panel. -/
inductive PanelAction
  | arm (mode : ArmingMode)
  | disarm
  | trip
  | setZone (number : UInt8) (unsealed : Bool)
  | setAuxOutput (number : UInt8) (on : Bool)
  | accept (text : String)
  | sendReply (index : Nat)
  | startActivity
  | stopActivity
  | expire (index : Nat)
  | wake (index drawnZone restMillis : Nat)
  | pass (millis : Nat)
  deriving DecidableEq, Repr

namespace SimulatedPanel

/-- When the delays and rests that are under way end. -/
def dueTimes (p : SimulatedPanel) : List Nat :=
  p.delayed.map (·.due) ++ p.activities.map (·.due)

/-- The panel after the action, if it can happen now. -/
def perform? (action : PanelAction) (p : SimulatedPanel) : Option SimulatedPanel :=
  match action with
  | .arm mode => some (p.arm mode)
  | .disarm => some p.disarm
  | .trip => some p.trip
  | .setZone number unsealed => (p.setZone number unsealed).toOption
  | .setAuxOutput number on => (p.setAuxOutput number on).toOption
  | .accept text => some (p.accept text)
  | .sendReply index => if index < p.replies.length then some (p.sendReply index) else none
  | .startActivity => some p.startActivity
  | .stopActivity => some p.stopActivity
  | .expire index =>
    match p.delayed[index]? with
    | some transition => if transition.due ≤ p.now then some (p.expire index) else none
    | none => none
  | .wake index drawnZone restMillis =>
    match p.activities[index]? with
    | some activity =>
      if activity.due ≤ p.now then some (p.wake index drawnZone restMillis) else none
    | none => none
  | .pass millis =>
    if p.dueTimes.all fun due => p.now + millis ≤ due then some { p with now := p.now + millis }
    else none

/-- The panel after a history, if each action of it can happen in its turn. -/
def performAll? (actions : List PanelAction) (p : SimulatedPanel) : Option SimulatedPanel :=
  actions.foldlM (fun q action => q.perform? action) p

/-! ## Everything in its time -/

/-- What zone activity draws when it wakes: a zone, and a rest of at least a millisecond. -/
structure Draw where
  zone : Nat
  restMillis : Nat
  deriving DecidableEq, Repr

/-- What is due now: the first delayed transition, else the first zone activity. -/
def dueAction? (draw : Draw) (p : SimulatedPanel) : Option PanelAction :=
  match p.delayed.findIdx? (·.due ≤ p.now) with
  | some index => some (.expire index)
  | none =>
    (p.activities.findIdx? (·.due ≤ p.now)).map fun index =>
      .wake index draw.zone (max 1 draw.restMillis)

/-- Lets up to so many things happen that are due. -/
def settleWithin (draw : Draw) : Nat → SimulatedPanel → SimulatedPanel
  | 0, p => p
  | n + 1, p =>
    match (p.dueAction? draw).bind p.perform? with
    | some q => settleWithin draw n q
    | none => p

/-- Lets everything happen that is due. Each delayed transition happens once, and each zone activity
once, after which it may have begun one more delay. -/
def settle (draw : Draw) (p : SimulatedPanel) : SimulatedPanel :=
  settleWithin draw (p.delayed.length + 2 * p.activities.length) p

/-- The next time after now at which something is due. -/
def nextDue? (p : SimulatedPanel) : Option Nat := (p.dueTimes.filter (p.now < ·)).min?

/-- Lets time pass up to `target`, and everything happen that is due before it; at most `n` times may be
stopped at. -/
def advanceWithin (draw : Draw) (target : Nat) : Nat → SimulatedPanel → SimulatedPanel
  | 0, p => p
  | n + 1, p =>
    let stop := p.nextDue?.elim target (min target)
    match p.perform? (.pass (stop - p.now)) with
    | some q => if stop = target then q else advanceWithin draw target n (q.settle draw)
    | none => p

/-- Lets so many milliseconds pass, and everything happen when it is due. -/
def advance (draw : Draw) (millis : Nat) (p : SimulatedPanel) : SimulatedPanel :=
  (advanceWithin draw (p.now + millis) (millis + 1) p).settle draw

/-! ## What happens in its time is a history -/

theorem performAll?_append (as bs : List PanelAction) (p : SimulatedPanel) :
    p.performAll? (as ++ bs) = (p.performAll? as).bind fun q => q.performAll? bs := by
  simp [performAll?, List.foldlM_append]

/-- A history may be followed by another one. -/
theorem performAll?_trans {as bs : List PanelAction} {p q r : SimulatedPanel}
    (has : p.performAll? as = some q) (hbs : q.performAll? bs = some r) :
    p.performAll? (as ++ bs) = some r := by
  rw [performAll?_append, has, Option.bind_some, hbs]

theorem exists_history_settleWithin (draw : Draw) (n : Nat) (p : SimulatedPanel) :
    ∃ actions, p.performAll? actions = some (settleWithin draw n p) := by
  induction n generalizing p with
  | zero => exact ⟨[], rfl⟩
  | succ n ih =>
    rw [settleWithin]
    split
    next q hq =>
      obtain ⟨action, -, ha⟩ := Option.bind_eq_some_iff.1 hq
      obtain ⟨actions, has⟩ := ih q
      have hone : p.performAll? [action] = some q := by simp [performAll?, ha]
      exact ⟨[action] ++ actions, performAll?_trans hone has⟩
    next => exact ⟨[], rfl⟩

/-- Letting everything happen that is due is one of the histories of the panel. -/
theorem exists_history_settle (draw : Draw) (p : SimulatedPanel) :
    ∃ actions, p.performAll? actions = some (p.settle draw) :=
  exists_history_settleWithin draw _ p

theorem exists_history_advanceWithin (draw : Draw) (target n : Nat) (p : SimulatedPanel) :
    ∃ actions, p.performAll? actions = some (advanceWithin draw target n p) := by
  induction n generalizing p with
  | zero => exact ⟨[], rfl⟩
  | succ n ih =>
    rw [advanceWithin]
    split
    next q hq =>
      have hpass : p.performAll? [.pass (p.nextDue?.elim target (min target) - p.now)] = some q := by
        simp [performAll?, hq]
      split
      next => exact ⟨_, hpass⟩
      next =>
        obtain ⟨as, has⟩ := exists_history_settle draw q
        obtain ⟨bs, hbs⟩ := ih (q.settle draw)
        exact ⟨_, performAll?_trans (performAll?_trans hpass has) hbs⟩
    next => exact ⟨[], rfl⟩

/-- So is letting time pass. -/
theorem exists_history_advance (draw : Draw) (millis : Nat) (p : SimulatedPanel) :
    ∃ actions, p.performAll? actions = some (p.advance draw millis) := by
  obtain ⟨as, has⟩ := exists_history_advanceWithin draw (p.now + millis) (millis + 1) p
  obtain ⟨bs, hbs⟩ :=
    exists_history_settle draw (advanceWithin draw (p.now + millis) (millis + 1) p)
  exact ⟨as ++ bs, performAll?_trans has hbs⟩

end SimulatedPanel

end AlarmPanel
