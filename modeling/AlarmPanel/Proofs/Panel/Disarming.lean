import AlarmPanel.Proofs.Panel.Delays

/-!
# Only the user's code disarms

From outside, a panel is reached by the lines of its clients alone. Meanwhile delays end, zones open and close
and answers are sent. An `Occurrence` is one of these things, and a history of them is a history of the panel's
actions (`SimulatedPanel.undergoAll?_eq`) in which only a line can disarm
(`SimulatedPanel.movement?_eq_disarming_iff`). No delay ends in the disarmed state, so in every history of a new
panel it is the lines with the user's code that disarm it (`SimulatedPanel.disarmed_by_code_only`). Every line
that does not request one of the five texts for arming and disarming leaves the panel as it is, up to its outputs
and its answers (`SimulatedPanel.line_of_not_moves`).
-/

namespace AlarmPanel

/-! ## Commands that move the panel -/

namespace UserCommand

variable {code text : String} {command : UserCommand}

/-- The texts that arm or disarm a panel with this code. -/
def movingTexts (code : String) : List String :=
  ["AE", "HE", "A" ++ code ++ "E", "H" ++ code ++ "E", code ++ "E"]

/-- A text asks for a movement only if it is one of these. -/
theorem movement?_of_not_mem (htext : text ∉ movingTexts code) (h : parse? code text = some command) :
    command.movement? = none := by
  obtain hmem | ⟨number, on, rfl⟩ := parse?_cases h
  · have hall : ∀ entry ∈ texts code, entry.1 ∈ movingTexts code ∨ entry.2.movement? = none := by
      simp [texts, movingTexts, movement?]
    exact (hall _ hmem).resolve_left htext
  · rfl

/-- The code followed by an E disarms, unless that text arms without a code. -/
theorem parse?_eq_disarm_iff :
    parse? code text = some .disarm ↔ text = code ++ "E" ∧ code ≠ "A" ∧ code ≠ "H" := by
  constructor
  · intro h
    have htext : text = code ++ "E" := by simpa [texts] using parse?_cases h
    subst htext
    refine ⟨rfl, ?_, ?_⟩
    · rintro rfl
      have harm : parse? "A" ("A" ++ "E") = some (.arm .away) := by decide
      rw [harm] at h
      cases h
    · rintro rfl
      have harm : parse? "H" ("H" ++ "E") = some (.arm .home) := by decide
      rw [harm] at h
      cases h
  · rintro ⟨rfl, haway, hhome⟩
    -- The four texts that arm end in an E as well, so what stands before it makes the difference.
    have hfront {front : String} (hne : code ≠ front) : code ++ "E" ≠ front ++ "E" := fun h =>
      hne ((String.append_left_inj "E").mp h)
    have hlonger {letter : String} (hletter : letter.length = 1) : code ≠ letter ++ code := by
      intro h
      have hlen := congrArg String.length h
      rw [String.length_append] at hlen
      omega
    have hae : code ++ "E" ≠ "AE" := by
      rw [show "AE" = "A" ++ "E" by decide]
      exact hfront haway
    have hhe : code ++ "E" ≠ "HE" := by
      rw [show "HE" = "H" ++ "E" by decide]
      exact hfront hhome
    have hawayCode : code ++ "E" ≠ "A" ++ code ++ "E" := hfront (hlonger (by decide))
    have hhomeCode : code ++ "E" ≠ "H" ++ code ++ "E" := hfront (hlonger (by decide))
    unfold parse?
    rw [if_neg hae, if_neg hhe, if_neg hawayCode, if_neg hhomeCode, if_pos rfl]

end UserCommand

namespace SimulatedPanel

variable {p q : SimulatedPanel}

/-- A command that asks for no movement leaves the panel as it is, up to its outputs and its answers. -/
theorem obey_of_movement?_eq_none {command : UserCommand} (h : command.movement? = none) (p : SimulatedPanel) :
    ∃ auxOutputs replies, p.obey command = { p with auxOutputs, replies } := by
  cases command with
  | arm mode => cases h
  | disarm => cases h
  | askZones bank => exact ⟨_, _, rfl⟩
  | askArming => exact ⟨_, _, rfl⟩
  | askVersion => exact ⟨_, _, rfl⟩
  | askAuxOutputs => exact ⟨_, _, rfl⟩
  | setAuxOutput number on =>
    simp only [obey, setAuxOutput]
    cases AuxOutput.ofNumber? number.toNat with
    | none => exact ⟨_, _, rfl⟩
    | some output => exact ⟨_, _, rfl⟩

end SimulatedPanel

/-! ## What happens to a panel -/

/-- One thing that happens to a panel that only its clients reach. -/
inductive Occurrence
  /-- A client's line is taken in, up to its answer. -/
  | line (text : List Char)
  | sendReply (index : Nat)
  | expire (index : Nat)
  | setZone (number : UInt8) (unsealed : Bool)
  | startActivity
  | stopActivity
  | wake (index drawnZone restMillis : Nat)
  | pass (millis : Nat)

/-- What the panel does then. A line without a command is left out of account. -/
def Occurrence.action? : Occurrence → Option PanelAction
  | .line text => (SimulatedPanel.commandOfLine? text).map .accept
  | .sendReply index => some (.sendReply index)
  | .expire index => some (.expire index)
  | .setZone number unsealed => some (.setZone number unsealed)
  | .startActivity => some .startActivity
  | .stopActivity => some .stopActivity
  | .wake index drawnZone restMillis => some (.wake index drawnZone restMillis)
  | .pass millis => some (.pass millis)

namespace SimulatedPanel

variable {p q : SimulatedPanel} {occurrence : Occurrence} {history : List Occurrence}

/-- The panel after an occurrence, if it can happen now. -/
def undergo? (occurrence : Occurrence) (p : SimulatedPanel) : Option SimulatedPanel :=
  match occurrence.action? with
  | some action => p.perform? action
  | none => some p

/-- The panel after a history of occurrences, if each of it can happen in its turn. -/
def undergoAll? (history : List Occurrence) (p : SimulatedPanel) : Option SimulatedPanel :=
  history.foldlM (fun q occurrence => q.undergo? occurrence) p

/-- A history of occurrences is a history of actions. -/
theorem undergoAll?_eq (history : List Occurrence) (p : SimulatedPanel) :
    p.undergoAll? history = p.performAll? (history.filterMap Occurrence.action?) := by
  induction history generalizing p with
  | nil => rfl
  | cons occurrence history ih =>
    cases haction : occurrence.action? with
    | none =>
      have hone : p.undergo? occurrence = some p := by rw [undergo?, haction]
      rw [List.filterMap_cons_none haction, ← ih, undergoAll?, List.foldlM_cons, hone]
      rfl
    | some action =>
      have hone : p.undergo? occurrence = p.perform? action := by rw [undergo?, haction]
      rw [List.filterMap_cons_some haction, undergoAll?, performAll?, List.foldlM_cons, List.foldlM_cons, hone]
      exact congrArg _ (funext ih)

/-- The line spells a request, between blanks, and the text is its payload. -/
def Requests (line : List Char) (text : String) : Prop :=
  ∃ frame, Frame.decode (String.ofList (Text.trim line)) = .ok frame ∧
    frame.command = .userInterface ∧ frame.isResponse = false ∧ frame.data = text

theorem commandOfLine?_eq_some_iff {line : List Char} {text : String} :
    commandOfLine? line = some text ↔ Requests line text := by
  unfold commandOfLine? Requests
  cases Frame.decode (String.ofList (Text.trim line)) with
  | error e => simp
  | ok frame => simp [and_assoc]

/-! ## Lines that disarm -/

/-- The line requests the code and an E, and this is no command without a code. -/
def Disarms (code : String) (line : List Char) : Prop :=
  Requests line (code ++ "E") ∧ code ≠ "A" ∧ code ≠ "H"

theorem disarms_iff {code : String} {line : List Char} :
    Disarms code line ↔
      ∃ text, commandOfLine? line = some text ∧ UserCommand.parse? code text = some .disarm := by
  simp only [UserCommand.parse?_eq_disarm_iff, commandOfLine?_eq_some_iff, Disarms]
  constructor
  · rintro ⟨hline, hcode⟩
    exact ⟨_, hline, rfl, hcode⟩
  · rintro ⟨text, hline, rfl, hcode⟩
    exact ⟨hline, hcode⟩

/-- Of all that happens to a panel only a line can disarm it. -/
theorem movement?_eq_disarming_iff {action : PanelAction} (h : occurrence.action? = some action) :
    p.movement? action = some .disarming ↔
      ∃ line, occurrence = .line line ∧ Disarms p.settings.userCode line := by
  have htrips (b : Prop) [Decidable b] : (if b then some Movement.tripping else none) ≠ some .disarming := by
    split <;> simp
  cases occurrence with
  | line line =>
    obtain ⟨text, htext, rfl⟩ := Option.map_eq_some_iff.mp h
    have hmovement (command : UserCommand) : command.movement? = some .disarming ↔ command = .disarm := by
      cases command <;> simp [UserCommand.movement?]
    simp only [movement?, Option.bind_eq_some_iff, hmovement, exists_eq_right, Occurrence.line.injEq,
      exists_eq_left', disarms_iff, htext, Option.some.injEq]
  | setZone number unsealed =>
    cases h
    simp [movement?, htrips]
  | wake index drawnZone restMillis =>
    cases h
    simp [movement?, htrips]
  | sendReply index =>
    cases h
    simp [movement?]
  | expire index =>
    cases h
    simp [movement?]
  | startActivity =>
    cases h
    simp [movement?]
  | stopActivity =>
    cases h
    simp [movement?]
  | pass millis =>
    cases h
    simp [movement?]

/-- A delay never ends in the disarmed state, so it is a disarming line that disarms. -/
theorem state_undergo?_iff {latest : Option (Nat × Movement)} (hp : p.schedule.Timely latest)
    (h : p.undergo? occurrence = some q) (hstate : p.state ≠ .disarmed) :
    q.state = .disarmed ↔ ∃ line, occurrence = .line line ∧ Disarms p.settings.userCode line := by
  unfold undergo? at h
  split at h
  next action haction =>
    rw [← movement?_eq_disarming_iff haction]
    have hstep := step_of_perform? h
    constructor
    · intro hq
      have hne : q.schedule.state ≠ p.schedule.state := fun heq => hstate (heq.symm.trans hq)
      obtain ⟨m, hm, hafter⟩ | ⟨-, harmed, -⟩ | ⟨-, htripped, -⟩ := hp.entry hstep hne
      · have hdisarming : Schedule.afterMovement m = .disarmed := hafter.symm.trans hq
        cases m with
        | arming => cases hdisarming
        | tripping => cases hdisarming
        | disarming => exact hm
      · cases harmed.symm.trans hq
      · cases htripped.symm.trans hq
    · intro hmovement
      rw [hmovement] at hstep
      exact hstep.state_eq
  next hnone =>
    obtain rfl := Option.some.inj h
    refine ⟨fun hq => absurd hq hstate, ?_⟩
    rintro ⟨line, rfl, hline⟩
    obtain ⟨text, htext, -⟩ := disarms_iff.mp hline
    rw [Occurrence.action?, htext] at hnone
    cases hnone

/-! ## Lines that do not move the panel -/

theorem accept_of_not_mem {text : String} (h : text ∉ UserCommand.movingTexts p.settings.userCode) :
    ∃ auxOutputs replies, p.accept text = { p with auxOutputs, replies } := by
  unfold accept
  split
  next command hcommand => exact obey_of_movement?_eq_none (UserCommand.movement?_of_not_mem h hcommand) p
  next => exact ⟨_, _, rfl⟩

/-- The line requests to arm or to disarm a panel with this code. -/
def Moves (code : String) (line : List Char) : Prop :=
  ∃ text ∈ UserCommand.movingTexts code, Requests line text

/-- Every other line leaves the panel as it is, up to its outputs and answers, and to its frames when the answer
has been sent. -/
theorem line_of_not_moves {line : List Char} (h : ¬ Moves p.settings.userCode line) :
    (∃ auxOutputs replies, p.undergo? (.line line) = some { p with auxOutputs, replies }) ∧
      ∃ auxOutputs replies frames, p.handleLine line = { p with auxOutputs, replies, frames } := by
  simp only [undergo?, Occurrence.action?, handleLine]
  cases hcommand : commandOfLine? line with
  | none => exact ⟨⟨_, _, rfl⟩, _, _, _, rfl⟩
  | some text =>
    have htext : text ∉ UserCommand.movingTexts p.settings.userCode := fun hmem =>
      h ⟨text, hmem, commandOfLine?_eq_some_iff.mp hcommand⟩
    obtain ⟨auxOutputs, replies, haccept⟩ := accept_of_not_mem htext
    have hsent : p.handleCommand text = _ := sendReplies_eq (p.accept text)
    rw [haccept] at hsent
    exact ⟨⟨_, _, congrArg some haccept⟩, _, _, _, hsent⟩

variable {settings : PanelSettings} {clock : Nat → Timestamp}

/-- Whatever has happened to a new panel: if it is not disarmed, what disarms it is a line that requests the
user's code and an E, and such a line does so unless that text arms without a code. Every line that does not
request to arm or to disarm leaves the state, the mode, the zones, the zone activity and the delays of the panel
as they are. -/
theorem disarmed_by_code_only (h : (new settings clock).undergoAll? history = some p) :
    (∀ occurrence q, p.undergo? occurrence = some q → p.state ≠ .disarmed →
      (q.state = .disarmed ↔ ∃ line, occurrence = .line line ∧ Disarms settings.userCode line)) ∧
    ∀ line, ¬ Moves settings.userCode line →
      (∃ auxOutputs replies, p.undergo? (.line line) = some { p with auxOutputs, replies }) ∧
        ∃ auxOutputs replies frames, p.handleLine line = { p with auxOutputs, replies, frames } := by
  rw [undergoAll?_eq] at h
  have htimely := timely_of_performAll? (timely_new settings clock) h
  have hsettings : p.settings = settings := settings_of_performAll? h
  rw [← hsettings]
  exact ⟨fun occurrence q => state_undergo?_iff htimely, fun line => line_of_not_moves⟩

/-- A panel that a user has armed: the code with an E disarms it, and the code alone does nothing. -/
theorem disarmed_by_code_only_armed :
    let p₀ := new .default fun _ => ⟨⟨2024, 1, 1, by decide⟩, 0, 0, 0, by decide⟩
    let line (text : String) : List Char := (Frame.request text).encode.toList
    ∃ p q, p₀.undergoAll? [.line (line "AE"), .pass 10000, .expire 0] = some p ∧ p.state = .armed ∧
      p.undergo? (.line (line "1234E")) = some q ∧ q.state = .disarmed ∧
        (∃ disarming, Occurrence.line (line "1234E") = .line disarming ∧ Disarms "1234" disarming) ∧
        ∃ auxOutputs replies, p.undergo? (.line (line "1234")) = some { p with auxOutputs, replies } := by
  intro p₀ line
  have hrun : (p₀.undergoAll? [.line (line "AE"), .pass 10000, .expire 0]).any (fun p => p.state = .armed ∧
      (p.undergo? (.line (line "1234E"))).any fun q => q.state = .disarmed) := by
    decide +kernel
  obtain ⟨p, hp, hpq⟩ := (Option.any_eq_true _ _).mp hrun
  obtain ⟨harmed, hpq⟩ := of_decide_eq_true hpq
  obtain ⟨q, hq, hend⟩ := (Option.any_eq_true _ _).mp hpq
  have hdisarmed : q.state = .disarmed := of_decide_eq_true hend
  obtain ⟨honly, hothers⟩ := disarmed_by_code_only hp
  have hidle : ¬ Moves "1234" (line "1234") := by
    have hcommand : commandOfLine? (line "1234") = some "1234" := by decide +kernel
    rintro ⟨text, hmem, hline⟩
    obtain rfl := Option.some.inj (hcommand.symm.trans (commandOfLine?_eq_some_iff.mpr hline))
    exact absurd hmem (by decide)
  exact ⟨p, q, hp, harmed, hq, hdisarmed, (honly _ q hq (by rw [harmed]; decide)).mp hdisarmed,
    (hothers _ hidle).1⟩

end SimulatedPanel

end AlarmPanel
