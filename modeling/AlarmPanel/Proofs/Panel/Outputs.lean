import AlarmPanel.Proofs.Panel.Frames
import AlarmPanel.Proofs.Payload.Flags
import Mathlib.Data.List.Induction

/-!
# The outputs of a panel

Commands switch the auxiliary outputs, and so does the panel's owner. Nothing else that happens to a panel touches
them (`SimulatedPanel.auxOutputs_perform?`), so in a history of a new panel an output is on just when it was switched
on last (`SimulatedPanel.has_auxOutputs_iff`), and a request for the outputs is answered by just these
(`SimulatedPanel.frames_askAuxOutputs`). Whether a text switches an output does not depend on the user's code
(`UserCommand.parse?_eq_setAuxOutput_iff`).
-/

namespace AlarmPanel

/-! ## Switches -/

namespace AuxOutput

variable {output : AuxOutput} {number : UInt8} {on : Bool} {switches : List (AuxOutput × Bool)}

/-- What it comes to that the output with this number is switched: nothing, if there is no such output. -/
def switch? (number : UInt8) (on : Bool) : Option (AuxOutput × Bool) :=
  (ofNumber? number.toNat).map fun output => (output, on)

/-- What an output is switched to last. -/
def lastSwitch? (output : AuxOutput) (switches : List (AuxOutput × Bool)) : Option Bool :=
  switches.reverse.lookup output

theorem lastSwitch?_concat (output : AuxOutput) (switches : List (AuxOutput × Bool)) (next : AuxOutput × Bool) :
    lastSwitch? output (switches ++ [next]) =
      if next.1 = output then some next.2 else lastSwitch? output switches := by
  rw [lastSwitch?, List.reverse_concat, List.lookup_cons]
  by_cases h : next.1 = output
  · rw [if_pos h, h, beq_self_eq_true]
  · rw [if_neg h, beq_false_of_ne (Ne.symm h)]
    rfl

end AuxOutput

namespace FlagSet

variable {outputs : FlagSet AuxOutput}

/-- The outputs after they have been switched, one switch after the other. -/
def switch (outputs : FlagSet AuxOutput) (switches : List (AuxOutput × Bool)) : FlagSet AuxOutput :=
  switches.foldl (fun outputs next => outputs.assign next.1 next.2) outputs

theorem switch_append (outputs : FlagSet AuxOutput) (first second : List (AuxOutput × Bool)) :
    outputs.switch (first ++ second) = (outputs.switch first).switch second := List.foldl_append

/-- An output that has been switched is as it was switched last, and the others are as they were. -/
theorem has_switch (outputs : FlagSet AuxOutput) (output : AuxOutput) (switches : List (AuxOutput × Bool)) :
    (outputs.switch switches).has output = (output.lastSwitch? switches).getD (outputs.has output) := by
  induction switches using List.reverseRecOn with
  | nil => rfl
  | append_singleton switches next ih =>
    have hlast : (outputs.switch (switches ++ [next])).has output =
        ((outputs.switch switches).assign next.1 next.2).has output := by
      rw [switch_append]
      rfl
    rw [hlast, has_assign, AuxOutput.lastSwitch?_concat, ih]
    split <;> rfl

theorem OnlyDeclared.switch (h : outputs.OnlyDeclared) (switches : List (AuxOutput × Bool)) :
    (outputs.switch switches).OnlyDeclared := by
  induction switches generalizing outputs with
  | nil => exact h
  | cons next switches ih => exact ih (h.assign next.1 next.2)

end FlagSet

namespace UserCommand

variable {code text : String} {cs : List Char} {command : UserCommand} {number : UInt8} {on : Bool}

/-- What a command switches. -/
def switched? : UserCommand → Option (AuxOutput × Bool)
  | .setAuxOutput number on => AuxOutput.switch? number on
  | _ => none

theorem getLast?_of_switch? (h : switch? cs = some command) :
    cs.getLast? = some '*' ∨ cs.getLast? = some '#' := by
  unfold switch? at h
  split at h
  next a b action =>
    obtain ⟨-, h⟩ := Option.ite_none_right_eq_some.mp h
    obtain ⟨number, -, h⟩ := Option.bind_eq_some_iff.mp h
    split at h
    next => exact .inl rfl
    next => exact .inr rfl
    next => cases h
  next => cases h

/-- A text is a switch or not, whatever the user's code: the other commands begin or end with a letter. -/
theorem parse?_eq_setAuxOutput_iff :
    parse? code text = some (.setAuxOutput number on) ↔ switch? text.toList = some (.setAuxOutput number on) := by
  constructor
  · intro h
    unfold parse? at h
    iterate 10
      obtain heq | h := eq_or_eq_of_ite h
      · cases congrArg Prod.snd heq
    exact h
  · intro h
    have hlast : text.toList.getLast? ≠ some 'E' := by
      rcases getLast?_of_switch? h with heq | heq <;> rw [heq] <;> decide
    have hother {other : String} (hnone : switch? other.toList = none) : text ≠ other := by
      rintro rfl
      cases hnone.symm.trans h
    have hwithCode (front : String) : text ≠ front ++ "E" := ne_append_of_getLast? hlast front
    unfold parse?
    rw [if_neg (hother (by decide)), if_neg (hother (by decide)), if_neg (hwithCode _), if_neg (hwithCode _),
      if_neg (hwithCode _), if_neg (hother (by decide)), if_neg (hother (by decide)), if_neg (hother (by decide)),
      if_neg (hother (by decide)), if_neg (hother (by decide))]
    exact h

/-- What a text switches depends on the text alone. -/
theorem switched?_parse? (code text : String) :
    (parse? code text).bind switched? = (switch? text.toList).bind switched? := by
  refine Option.ext fun next => ?_
  have hswitch (read : Option UserCommand) :
      read.bind switched? = some next ↔
        ∃ number on, read = some (.setAuxOutput number on) ∧ AuxOutput.switch? number on = some next := by
    rw [Option.bind_eq_some_iff]
    constructor
    · rintro ⟨command, hread, hnext⟩
      cases command with
      | setAuxOutput number on => exact ⟨number, on, hread, hnext⟩
      | _ => cases hnext
    · rintro ⟨number, on, hread, hnext⟩
      exact ⟨_, hread, hnext⟩
  simp only [hswitch, parse?_eq_setAuxOutput_iff]

end UserCommand

/-- What an action switches. -/
def PanelAction.switch? : PanelAction → Option (AuxOutput × Bool)
  | .setAuxOutput number on => AuxOutput.switch? number on
  | .accept text => (UserCommand.switch? text.toList).bind UserCommand.switched?
  | _ => none

namespace SimulatedPanel

variable {p q : SimulatedPanel} {action : PanelAction} {actions : List PanelAction} {number : UInt8} {on : Bool}

/-! ## What touches the outputs -/

theorem auxOutputs_setAuxOutput (h : p.setAuxOutput number on = .ok q) :
    q.auxOutputs = p.auxOutputs.switch (AuxOutput.switch? number on).toList := by
  unfold setAuxOutput at h
  unfold AuxOutput.switch?
  split at h
  next output houtput =>
    cases h
    rw [houtput]
    rfl
  next => cases h

theorem auxOutputs_obey (command : UserCommand) (p : SimulatedPanel) :
    (p.obey command).auxOutputs = p.auxOutputs.switch command.switched?.toList := by
  cases command with
  | arm mode => rw [obey, arm_eq]; rfl
  | disarm => rw [obey, disarm_eq]; rfl
  | setAuxOutput number on =>
    unfold obey
    dsimp only
    split
    next q hq => exact auxOutputs_setAuxOutput hq
    next e he =>
      have hnone : AuxOutput.ofNumber? number.toNat = none := by
        unfold setAuxOutput at he
        split at he
        next => cases he
        next hnone => exact hnone
      rw [UserCommand.switched?, AuxOutput.switch?, hnone]
      rfl
  | askZones | askArming | askVersion | askAuxOutputs => rfl

theorem auxOutputs_accept (text : String) (p : SimulatedPanel) :
    (p.accept text).auxOutputs = p.auxOutputs.switch (PanelAction.accept text).switch?.toList := by
  rw [PanelAction.switch?, ← UserCommand.switched?_parse? p.settings.userCode, accept]
  split
  next command hcommand =>
    rw [hcommand, auxOutputs_obey]
    rfl
  next hnone =>
    rw [hnone]
    rfl

theorem auxOutputs_setZone {unsealed : Bool} (h : p.setZone number unsealed = .ok q) :
    q.auxOutputs = p.auxOutputs := by
  obtain ⟨-, rfl⟩ := setZone_eq_ok_iff.mp h
  split
  · rw [trip_eq, turnZone_eq]
  · rw [turnZone_eq]

theorem auxOutputs_wake (index drawnZone restMillis : Nat) (p : SimulatedPanel) :
    (p.wake index drawnZone restMillis).auxOutputs = p.auxOutputs := by
  unfold wake
  split
  next => rfl
  next activity hactivity =>
    dsimp only
    split
    next =>
      split
      next q hq =>
        have hturned := auxOutputs_setZone hq
        exact hturned
      next => rfl
    next => rfl

theorem auxOutputs_expire (index : Nat) (p : SimulatedPanel) : (p.expire index).auxOutputs = p.auxOutputs := by
  unfold expire
  split
  next => rfl
  next =>
    dsimp only
    split
    next => rw [moveTo_eq]
    next => rfl

theorem auxOutputs_sendReply (index : Nat) (p : SimulatedPanel) :
    (p.sendReply index).auxOutputs = p.auxOutputs := by
  unfold sendReply
  split
  next => rfl
  next => rw [answer, send_eq]

/-- An action does to the outputs what it switches, and nothing else. -/
theorem auxOutputs_perform? (h : p.perform? action = some q) :
    q.auxOutputs = p.auxOutputs.switch action.switch?.toList := by
  cases action with
  | arm mode =>
    cases h
    rw [arm_eq]
    rfl
  | disarm =>
    cases h
    rw [disarm_eq]
    rfl
  | trip =>
    cases h
    rw [trip_eq]
    rfl
  | setZone number unsealed => exact auxOutputs_setZone (toOption_eq_some_iff.mp h)
  | setAuxOutput number on => exact auxOutputs_setAuxOutput (toOption_eq_some_iff.mp h)
  | accept text =>
    cases h
    exact auxOutputs_accept text p
  | sendReply index =>
    obtain ⟨-, hq⟩ := Option.ite_none_right_eq_some.mp h
    cases hq
    exact auxOutputs_sendReply index p
  | startActivity =>
    cases h
    unfold startActivity
    split <;> rfl
  | stopActivity =>
    cases h
    rfl
  | expire index =>
    obtain rfl := expire_of_perform? h
    exact auxOutputs_expire index p
  | wake index drawnZone restMillis =>
    obtain rfl := wake_of_perform? h
    exact auxOutputs_wake index drawnZone restMillis p
  | pass millis =>
    obtain ⟨-, hq⟩ := Option.ite_none_right_eq_some.mp h
    cases hq
    rfl

/-- So a history does to the outputs what its actions switch, in their order. -/
theorem auxOutputs_performAll? (h : p.performAll? actions = some q) :
    q.auxOutputs = p.auxOutputs.switch (actions.filterMap PanelAction.switch?) := by
  induction actions generalizing p with
  | nil =>
    cases h
    rfl
  | cons action actions ih =>
    obtain ⟨next, hnext, hrest⟩ := Option.bind_eq_some_iff.mp h
    have hsplit : (action :: actions).filterMap PanelAction.switch? =
        action.switch?.toList ++ actions.filterMap PanelAction.switch? := by
      cases hswitch : action.switch? <;> simp [hswitch]
    rw [hsplit, FlagSet.switch_append, ← auxOutputs_perform? hnext]
    exact ih hrest

variable {settings : PanelSettings} {clock : Nat → Timestamp}

/-- In a history of a new panel an output is on just when it was switched on last. -/
theorem has_auxOutputs_iff (h : (new settings clock).performAll? actions = some p) (output : AuxOutput) :
    p.auxOutputs.has output = true ↔ output.lastSwitch? (actions.filterMap PanelAction.switch?) = some true := by
  have hempty : (new settings clock).auxOutputs.has output = false := FlagSet.has_empty output
  rw [auxOutputs_performAll? h, FlagSet.has_switch, hempty]
  cases output.lastSwitch? (actions.filterMap PanelAction.switch?) <;> simp

theorem onlyDeclared_auxOutputs (h : (new settings clock).performAll? actions = some p) :
    p.auxOutputs.OnlyDeclared := by
  rw [auxOutputs_performAll? h]
  exact FlagSet.onlyDeclared_empty.switch _

/-! ## Answers -/

/-- A request for the outputs is answered by one line, after the answers that wait to be sent, and the line tells of
the outputs as they are. -/
theorem frames_askAuxOutputs (h : p.auxOutputs.OnlyDeclared) :
    ∃ line event, (p.handleCommand "S18").frames = p.sendReplies.frames ++ [line] ∧
      Event.ofLine line = .ok event ∧ event.body = .status (.auxOutputs p.auxOutputs) := by
  have hanswer : p.handleCommand "S18" = p.sendReplies.answer (.auxOutputs p.auxOutputs) := by
    rw [handleCommand, accept, UserCommand.parse?_eq_askAuxOutputs_iff.mpr rfl]
    exact sendReplies_concat _ p
  have hcarried : (StatusUpdate.auxOutputs p.auxOutputs).carried = .auxOutputs p.auxOutputs :=
    StatusUpdate.carried_eq_self_iff.mpr h
  refine ⟨_, answered (.auxOutputs p.auxOutputs), ?_, Event.ofLine_statusFrame (some 0) _, ?_⟩
  · rw [hanswer]
    exact frames_answer _ _
  · rw [answered, hcarried]

end SimulatedPanel

end AlarmPanel
