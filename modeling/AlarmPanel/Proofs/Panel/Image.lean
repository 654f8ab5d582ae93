import AlarmPanel.Panel.Command
import AlarmPanel.Proofs.Alarm.Arming

/-!
# The panel in the eyes of an alarm

Each state of the panel has its image among the states of the alarm. The events of a move take an alarm to
the image of the state that the panel moves to, from whatever the alarm knew (`Alarm.after_transitionEvents`):
on the way it may pass through other states, and the order of the events sees to it that they do not last.
The arming status tells less (`Alarm.handleArming_armingStatus`).
-/

namespace AlarmPanel

/-- The arming state that stands for a state of the panel. -/
def PanelState.image : PanelState → ArmingState
  | .disarmed => .disarmed
  | .exitDelay => .exitDelay
  | .armed => .armed
  | .entryDelay => .entryDelay
  | .tripped => .triggered

/-! ## The events of a move -/

namespace Alarm

/-- Only the bodies of the events matter to an alarm. -/
theorem after_congr {es fs : List Event} (h : es.map Event.body = fs.map Event.body) (a : Alarm) :
    a.after es = a.after fs := by
  have hfold (es : List Event) : a.after es =
      (es.map Event.body).foldl (fun a body => (a.handle ⟨none, none, body⟩).1) a := by
    rw [List.foldl_map]
    rfl
  rw [hfold, hfold, h]

/-- An event of the panel as a whole, as far as an alarm takes notice of it. -/
def panelEvent (type : EventType) : Event := ⟨none, none, .system ⟨type, 0, 0⟩⟩

theorem handle_armed (mode : ArmingMode) (a : Alarm) :
    (a.handle (panelEvent mode.eventType)).1 = { a with state := .arming, mode := some mode } := by
  cases mode <;> exact setState_fst .arming _

/-- The mode after a move: disarming forgets it, and the exit delay begins with the report of one. -/
def movedMode (next : PanelState) (mode known : Option ArmingMode) : Option ArmingMode :=
  match next with
  | .disarmed => none
  | .exitDelay => mode.or known
  | .armed | .entryDelay | .tripped => known

/-- The events of a move take the alarm to the state of the panel, whatever state it was in. Only the end
of the exit delay counts for nothing outside of it. -/
theorem after_transitionEvents (previous next : PanelState) (mode : Option ArmingMode) (a : Alarm)
    (harmed : next = .armed → a.state = .exitDelay) :
    a.after ((transitionEvents previous next mode).map panelEvent) =
      { a with state := next.image, mode := movedMode next mode a.mode } := by
  -- The beginnings set the state whatever it was; of the ends only that of the exit delay does anything.
  have hdisarmed (a : Alarm) : (a.handle (panelEvent .disarmed)).1 =
      { a with state := .disarmed, mode := none } := setState_fst ..
  have halarm (a : Alarm) : (a.handle (panelEvent .alarm)).1 = { a with state := .triggered } :=
    setState_fst ..
  have hexit (a : Alarm) : (a.handle (panelEvent .exitDelayStart)).1 = { a with state := .exitDelay } :=
    setState_fst ..
  have hentry (a : Alarm) : (a.handle (panelEvent .entryDelayStart)).1 =
      { a with state := .entryDelay } := setState_fst ..
  have hentryEnd (a : Alarm) : (a.handle (panelEvent .entryDelayEnd)).1 = a := rfl
  have hexitEnd (a : Alarm) : (a.handle (panelEvent .exitDelayEnd)).1 =
      { a with state := if a.state = .exitDelay then .armed else a.state } := by
    change (if a.state = .exitDelay then a.setState .armed else (a, [])).1 = _
    split
    next => rw [setState_fst]
    next => rfl
  unfold after
  cases next with
  | disarmed =>
    cases previous <;> simp [transitionEvents, hdisarmed, hexitEnd, hentryEnd, PanelState.image, movedMode]
  | exitDelay =>
    cases mode <;> cases previous <;>
      simp [transitionEvents, handle_armed, hexit, hentryEnd, PanelState.image, movedMode]
  | armed =>
    cases previous <;>
      simp [transitionEvents, hexitEnd, hentryEnd, harmed, PanelState.image, movedMode]
  | entryDelay =>
    cases previous <;> simp [transitionEvents, hexitEnd, hentry, PanelState.image, movedMode]
  | tripped =>
    cases previous <;>
      simp [transitionEvents, halarm, hexitEnd, hentryEnd, PanelState.image, movedMode]

/-! ## The arming status -/

/-- Every flag of an arming status is carried by its payload. -/
theorem declared_armingStatus (state : PanelState) :
    FlagSet.declared (armingStatus state).bits = armingStatus state := by
  cases state <;> rfl

/-- What an arming status says of the state: an empty one counts as disarmed, unless the state is to be
inferred and known. -/
theorem handleArming_armingStatus (state : PanelState) (a : Alarm) :
    (a.handleArming (armingStatus state)).1 =
      { a with
        state :=
          match state with
          | .exitDelay => .exitDelay
          | .armed => .armed
          | .disarmed | .entryDelay | .tripped =>
            if a.inferArming = true ∧ a.state ≠ .unknown then a.state else .disarmed } := by
  rw [handleArming_eq_sign]
  have hempty : ArmingSign.state a.inferArming a.state FlagSet.empty.armingSign =
      if a.inferArming = true ∧ a.state ≠ .unknown then a.state else .disarmed := by
    have hsign : FlagSet.empty.armingSign = .notArmed := rfl
    rw [hsign, ArmingSign.state, ← ite_not]
    simp
  cases state with
  | exitDelay => rfl
  | armed => rfl
  | disarmed | entryDelay | tripped => rw [← hempty]; rfl

end Alarm

end AlarmPanel
