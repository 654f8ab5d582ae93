import AlarmPanel.Proofs.Alarm.Events

/-!
# The arming of an alarm

The state and the mode of an alarm are a machine of their own. Of every event only its sign counts
(`EventBody.sign?`), and the sign alone says what becomes of the state and of the mode
(`Alarm.state_handle`, `Alarm.mode_handle`). So what holds in every history is shown sign by sign:
`Alarm.Coherent` says which modes go with which states, and `Alarm.arming_history` how the states are
entered and left.
-/

namespace AlarmPanel

/-- What an event says of the arming. -/
inductive ArmingSign
  | arms (mode : ArmingMode)
  | disarms
  | alarm
  | alarmOver
  | entryDelay
  | exitDelay
  | exitDelayOver
  /-- An arming status that counts as armed. -/
  | fullyArmed
  /-- An arming status that counts neither as armed nor as the exit delay. -/
  | notArmed
  deriving DecidableEq, Repr

/-- The sign of a system event; the events of zones and outputs, of power, batteries and the like have
none. -/
def EventType.sign? : EventType → Option ArmingSign
  | .alarm => some .alarm
  | .alarmRestore => some .alarmOver
  | .entryDelayStart => some .entryDelay
  | .exitDelayStart => some .exitDelay
  | .exitDelayEnd => some .exitDelayOver
  | .disarmed => some .disarms
  | type => (ArmingMode.ofEventType? type).map .arms

/-- The sign of an arming status. -/
def FlagSet.armingSign (status : FlagSet ArmingFlag) : ArmingSign :=
  if status = .ofList [.areaOneArmed] then .exitDelay
  else if status.has .areaOneArmed && status.has .areaOneFullyArmed then .fullyArmed
  else .notArmed

namespace EventBody

def sign? : EventBody → Option ArmingSign
  | .system e => e.type.sign?
  | .status (.arming word) => some word.armingSign
  | .status _ => none

/-- The type of a system event. -/
def type? : EventBody → Option EventType
  | .system e => some e.type
  | .status _ => none

end EventBody

theorem FlagSet.armingSign_mem (status : FlagSet ArmingFlag) :
    status.armingSign ∈ [ArmingSign.exitDelay, .fullyArmed, .notArmed] := by
  unfold armingSign
  split
  next => simp
  next => split <;> simp

namespace EventBody

variable {body : EventBody}

/-- A sign that no arming status has is that of the events of one type. -/
theorem sign?_eq_some_iff {sign : ArmingSign} {type : EventType}
    (htype : ∀ t : EventType, t.sign? = some sign ↔ t = type)
    (hsign : sign ∉ [ArmingSign.exitDelay, .fullyArmed, .notArmed]) :
    body.sign? = some sign ↔ body.type? = some type := by
  rcases body with e | ⟨_ | word | _ | _ | _ | _ | _⟩
  case system => simp [sign?, type?, htype]
  case status.arming =>
    have hne : word.armingSign ≠ sign := fun h => hsign (h ▸ word.armingSign_mem)
    simp [sign?, type?, hne]
  all_goals simp [sign?, type?]

theorem sign?_eq_arms_iff {mode : ArmingMode} :
    body.sign? = some (.arms mode) ↔ body.type? = some mode.eventType :=
  sign?_eq_some_iff (fun t => by cases t <;> cases mode <;> decide) (by simp)

theorem sign?_eq_disarms_iff : body.sign? = some .disarms ↔ body.type? = some .disarmed :=
  sign?_eq_some_iff (fun t => by cases t <;> decide) (by simp)

theorem sign?_eq_alarm_iff : body.sign? = some .alarm ↔ body.type? = some .alarm :=
  sign?_eq_some_iff (fun t => by cases t <;> decide) (by simp)

end EventBody

/-! ## Signs -/

namespace ArmingSign

/-- The state after a sign. The end of an alarm leaves a panel armed that was not disarmed, the end of the
exit delay counts only during that delay, and a panel that is not armed counts as disarmed unless its state
is inferred and known. -/
def state (infer : Bool) (before : ArmingState) : ArmingSign → ArmingState
  | .arms _ => .arming
  | .disarms => .disarmed
  | .alarm => .triggered
  | .alarmOver => if before ≠ .disarmed then .armed else before
  | .entryDelay => .entryDelay
  | .exitDelay => .exitDelay
  | .exitDelayOver => if before = .exitDelay then .armed else before
  | .fullyArmed => .armed
  | .notArmed => if infer = false ∨ before = .unknown then .disarmed else before

/-- The mode that a sign tells, if it tells one. -/
def mode? : ArmingSign → Option (Option ArmingMode)
  | .arms mode => some (some mode)
  | .disarms => some none
  | _ => none

end ArmingSign

/-- What an event tells of the mode. -/
def EventBody.mode? (body : EventBody) : Option (Option ArmingMode) := body.sign?.bind ArmingSign.mode?

namespace ArmingSign

variable {infer : Bool} {before : ArmingState} {sign : ArmingSign}

/-! How each state is entered; a sign that leaves it as it is tells no mode either. -/

theorem eq_unknown_of_state (h : sign.state infer before = .unknown) :
    before = .unknown ∧ sign.mode? = none := by
  cases sign <;> simp only [state, reduceCtorEq] at h
  all_goals split at h <;> simp_all [mode?]

theorem eq_alarm_of_state (h : sign.state infer before = .triggered) :
    before = .triggered ∨ sign = .alarm := by
  cases sign <;> simp only [state, reduceCtorEq] at h
  case alarm => exact .inr rfl
  all_goals split at h <;> simp_all

theorem eq_arms_of_state (h : sign.state infer before = .arming) :
    before = .arming ∧ sign.mode? = none ∨ ∃ mode, sign = .arms mode := by
  cases sign <;> simp only [state, reduceCtorEq] at h
  case arms mode => exact .inr ⟨mode, rfl⟩
  all_goals split at h <;> simp_all [mode?]

theorem eq_disarms_of_state (h : sign.state infer before = .disarmed) :
    before = .disarmed ∧ sign.mode? = none ∨ sign = .disarms ∨
      sign = .notArmed ∧ (infer = false ∨ before = .unknown) := by
  cases sign <;> simp only [state, reduceCtorEq] at h
  case disarms => exact .inr (.inl rfl)
  all_goals split at h <;> simp_all [mode?]

end ArmingSign

namespace Alarm

/-- Which modes go with which states. -/
structure Coherent (infer : Bool) (state : ArmingState) (mode : Option ArmingMode) : Prop where
  unknown : state = .unknown → mode = none
  arming : state = .arming → mode.isSome
  /-- Once the state is known, an alarm that infers it is disarmed only by what ends the mode as well. -/
  inferred : infer = true → state = .disarmed → mode = none

theorem Coherent.sign {infer : Bool} {state : ArmingState} {mode : Option ArmingMode}
    (h : Coherent infer state mode) (sign : ArmingSign) :
    Coherent infer (sign.state infer state) (sign.mode?.getD mode) where
  unknown hstate := by
    obtain ⟨hbefore, hmode⟩ := ArmingSign.eq_unknown_of_state hstate
    rw [hmode]
    exact h.unknown hbefore
  arming hstate := by
    rcases ArmingSign.eq_arms_of_state hstate with ⟨hbefore, hmode⟩ | ⟨told, rfl⟩
    · rw [hmode]
      exact h.arming hbefore
    · rfl
  inferred hinfer hstate := by
    rcases ArmingSign.eq_disarms_of_state hstate with ⟨hbefore, hmode⟩ | rfl | ⟨rfl, hbefore⟩
    · rw [hmode]
      exact h.inferred hinfer hbefore
    · rfl
    · exact h.unknown (hbefore.resolve_left (by simp [hinfer]))

/-! ## Events -/

/-- The stance of an alarm after a sign, if there is one. -/
def signed (a : Alarm) : Option ArmingSign → Bool × ArmingState × Option ArmingMode
  | some sign => (a.inferArming, sign.state a.inferArming a.state, sign.mode?.getD a.mode)
  | none => a.stance

theorem stance_setState (mode : Option ArmingMode) (state : ArmingState) (a : Alarm) :
    ({ a with mode }.setState state).1.stance = (a.inferArming, state, mode) := by
  rw [setState_fst]
  rfl

theorem stance_setState_if (p : Prop) [Decidable p] (state : ArmingState) (a : Alarm) :
    (if p then a.setState state else (a, [])).1.stance =
      (a.inferArming, if p then state else a.state, a.mode) := by
  split
  next => exact stance_setState a.mode state a
  next => rfl

/-- An arming status tells the state alone. -/
theorem handleArming_eq_sign (status : FlagSet ArmingFlag) (a : Alarm) :
    (a.handleArming status).1 = { a with state := status.armingSign.state a.inferArming a.state } := by
  unfold handleArming FlagSet.armingSign
  split
  next => exact setState_fst ..
  next =>
    split
    next => exact setState_fst ..
    next =>
      simp only [Bool.or_eq_true, Bool.not_eq_true', decide_eq_true_eq, ArmingSign.state]
      split
      next => exact setState_fst ..
      next => rfl

theorem stance_handleArming (status : FlagSet ArmingFlag) (a : Alarm) :
    (a.handleArming status).1.stance = a.signed (some status.armingSign) := by
  have hmode : status.armingSign.mode? = none := by
    have hmem := status.armingSign_mem
    generalize status.armingSign = sign at hmem
    decide +revert
  rw [handleArming_eq_sign, signed, hmode]
  rfl

theorem stance_handleSystem (event : SystemEvent) (a : Alarm) :
    (a.handleSystem event).1.stance = a.signed event.type.sign? := by
  obtain ⟨type, zone, area⟩ := event
  -- Zones apart, an event sets the state, or sets it on a condition, or does nothing.
  cases type
  case unsealed | sealed => exact stance_setZone ..
  case alarm | entryDelayStart | exitDelayStart => exact stance_setState a.mode _ a
  case alarmRestore =>
    change (if a.state = .disarmed then (a, []) else a.setState .armed).1.stance = _
    rw [← ite_not, stance_setState_if]
    rfl
  case exitDelayEnd => exact stance_setState_if (a.state = .exitDelay) _ a
  all_goals first | exact stance_setState _ _ a | rfl

/-- The first report of the panel stands. -/
theorem handleStatus_panelVersion (model : PanelModel) (major minor : UInt8) (a : Alarm) :
    (a.handleStatus (.panelVersion model major minor)).1 =
      { a with panel := a.panel.or (some ⟨model, showVersion major minor⟩) } := by
  obtain ⟨_, _, _, _, _, panel⟩ := a
  cases panel <;> rfl

theorem stance_handle (event : Event) (a : Alarm) :
    (a.handle event).1.stance = a.signed event.body.sign? := by
  obtain ⟨address, timestamp, body⟩ := event
  rcases body with e | ⟨bank, condition, word⟩ | status | _ | _ | _ | ⟨model, major, minor⟩ | flags
  case system => exact stance_handleSystem e a
  case status.arming => exact stance_handleArming status a
  case status.zone =>
    cases condition
    case inputUnsealed => exact stance_handleZones bank word a
    all_goals rfl
  case status.panelVersion =>
    exact (congrArg stance (handleStatus_panelVersion model major minor a)).trans rfl
  case status.auxOutputs => exact stance_handleAuxOutputs flags a
  all_goals rfl

/-- What becomes of the state depends on the sign of the event, the state before it and whether the state is
inferred. -/
theorem state_handle (event : Event) (a : Alarm) :
    (a.handle event).1.state =
      match event.body.sign? with
      | some sign => sign.state a.inferArming a.state
      | none => a.state := by
  have h := congrArg (fun stance => stance.2.1) (stance_handle event a)
  cases hsign : event.body.sign? <;> rwa [hsign] at h

/-- The mode is as the event tells it, or as it was. -/
theorem mode_handle (event : Event) (a : Alarm) :
    (a.handle event).1.mode = event.body.mode?.getD a.mode := by
  have h := congrArg (fun stance => stance.2.2) (stance_handle event a)
  unfold EventBody.mode?
  cases hsign : event.body.sign? <;> rwa [hsign] at h

/-- An event without a sign leaves the arming as it is, and the others lead where their signs lead. -/
theorem handle_cases (event : Event) (a : Alarm) :
    event.body.sign? = none ∧ (a.handle event).1.state = a.state ∧ (a.handle event).1.mode = a.mode ∨
      ∃ sign, event.body.sign? = some sign ∧
        (a.handle event).1.state = sign.state a.inferArming a.state ∧
        (a.handle event).1.mode = sign.mode?.getD a.mode := by
  rw [state_handle, mode_handle, EventBody.mode?]
  cases event.body.sign? with
  | none => exact .inl ⟨rfl, rfl, rfl⟩
  | some sign => exact .inr ⟨sign, rfl, rfl, rfl⟩

/-! ## Histories -/

/-- What every event preserves, all events preserve. -/
theorem after_preserves {P : Alarm → Prop} (hstep : ∀ (event : Event) (a : Alarm), P a → P (a.handle event).1)
    (events : List Event) {a : Alarm} (h : P a) : P (a.after events) := by
  induction events generalizing a with
  | nil => exact h
  | cons event events ih => exact ih (hstep event a h)

theorem coherent_handle (event : Event) (a : Alarm) (h : Coherent a.inferArming a.state a.mode) :
    Coherent (a.handle event).1.inferArming (a.handle event).1.state (a.handle event).1.mode := by
  rw [inferArming_handle]
  obtain ⟨-, hstate, hmode⟩ | ⟨sign, -, hstate, hmode⟩ := handle_cases event a
  · rwa [hstate, hmode]
  · rw [hstate, hmode]
    exact h.sign sign

theorem coherent_history (infer : Bool) (events : List Event) :
    Coherent infer ((new infer).after events).state ((new infer).after events).mode := by
  have hnew : Coherent (new infer).inferArming (new infer).state (new infer).mode :=
    ⟨fun _ => rfl, (by cases ·), fun _ => (by cases ·)⟩
  have hafter := after_preserves coherent_handle events hnew
  rwa [inferArming_after] at hafter

theorem state_handle_ne_unknown (event : Event) (a : Alarm) (h : a.state ≠ .unknown) :
    (a.handle event).1.state ≠ .unknown := by
  obtain ⟨-, hstate, -⟩ | ⟨sign, -, hstate, -⟩ := handle_cases event a
  · rwa [hstate]
  · rw [hstate]
    exact fun hunknown => h (ArmingSign.eq_unknown_of_state hunknown).1

/-- In every history a state that is known stays known; the mode is none as long as nothing is known, and is
some while the panel is about to be armed; an alarm is told only by its event, arming only by an event that
tells the mode, and the disarming of an alarm that infers its state, once that is known, only by the event
for it. -/
theorem arming_history (infer : Bool) (events : List Event) :
    let a := (new infer).after events
    (a.state ≠ .unknown → ∀ later, (a.after later).state ≠ .unknown) ∧
    (a.state = .unknown → a.mode = none) ∧
    (a.state = .arming → a.mode.isSome) ∧
    ∀ event,
      ((a.handle event).1.state = .triggered → a.state = .triggered ∨ event.body.type? = some .alarm) ∧
      ((a.handle event).1.state = .arming →
        a.state = .arming ∨ ∃ mode : ArmingMode, event.body.type? = some mode.eventType) ∧
      (infer = true → (a.handle event).1.state = .disarmed →
        a.state = .unknown ∨ a.state = .disarmed ∨ event.body.type? = some .disarmed) := by
  intro a
  have hcoherent := coherent_history infer events
  have hinfer : a.inferArming = infer := inferArming_after events (new infer)
  refine ⟨fun hknown later => after_preserves state_handle_ne_unknown later hknown, hcoherent.unknown,
    hcoherent.arming, fun event => ?_⟩
  obtain ⟨-, hstate, -⟩ | ⟨sign, hsign, hstate, -⟩ := handle_cases event a
  · rw [hstate]
    exact ⟨.inl, .inl, fun _ h => .inr (.inl h)⟩
  · rw [hstate]
    refine ⟨fun h => ?_, fun h => ?_, fun htrue h => ?_⟩
    · refine (ArmingSign.eq_alarm_of_state h).imp_right ?_
      rintro rfl
      exact EventBody.sign?_eq_alarm_iff.mp hsign
    · refine (ArmingSign.eq_arms_of_state h).imp And.left ?_
      rintro ⟨mode, rfl⟩
      exact ⟨mode, EventBody.sign?_eq_arms_iff.mp hsign⟩
    · rcases ArmingSign.eq_disarms_of_state h with ⟨hbefore, -⟩ | rfl | ⟨-, hbefore⟩
      · exact .inr (.inl hbefore)
      · exact .inr (.inr (EventBody.sign?_eq_disarms_iff.mp hsign))
      · -- A status that counts as not armed disarms an alarm that infers only where nothing is known yet.
        exact .inl (hbefore.resolve_left (by simp [hinfer, htrue]))

/-- A panel that is armed and then tells nothing when it is asked how far it is armed. -/
theorem arming_history_inferred :
    let a := (new true).after
      [⟨none, none, .system ⟨.armedAway, 0, 0⟩⟩, ⟨none, none, .status (.arming .empty)⟩]
    let alarm : Event := ⟨none, none, .system ⟨.alarm, 3, 0⟩⟩
    let disarmed : Event := ⟨none, none, .system ⟨.disarmed, 0, 0⟩⟩
    a.state = .arming ∧ a.mode.isSome ∧ (a.after [alarm, disarmed]).state ≠ .unknown ∧
      (a.handle alarm).1.state = .triggered ∧ alarm.body.type? = some .alarm ∧
      (a.handle disarmed).1.state = .disarmed ∧ disarmed.body.type? = some .disarmed := by
  intro a alarm disarmed
  have harming : a.state = .arming := by decide
  have htriggered : (a.handle alarm).1.state = .triggered := by decide
  have hdisarmed : (a.handle disarmed).1.state = .disarmed := by decide
  obtain ⟨hknown, -, hmode, hentered⟩ := arming_history true
    [⟨none, none, .system ⟨.armedAway, 0, 0⟩⟩, ⟨none, none, .status (.arming .empty)⟩]
  have halarm := (hentered alarm).1 htriggered
  have hdisarm := (hentered disarmed).2.2 rfl hdisarmed
  exact ⟨harming, hmode harming, hknown (by decide) _, htriggered, halarm.resolve_left (by decide),
    hdisarmed, (hdisarm.resolve_left (by decide)).resolve_left (by decide)⟩

end Alarm

end AlarmPanel
