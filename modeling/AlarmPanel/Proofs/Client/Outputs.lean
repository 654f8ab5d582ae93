import AlarmPanel.Proofs.Alarm.Parts
import AlarmPanel.Proofs.Client.Lines
import AlarmPanel.Proofs.Panel.Outputs
import AlarmPanel.Proofs.Panel.Requests

/-!
# Outputs that the client switches

A client switches the outputs of a panel by the lines that it writes, and the panel reads from each line just what the
call was to switch that wrote it (`Client.switch?_of_owns`). A `Delivery` is a line that comes in or anything else that
happens to the panel; a line that is handled at once is one, followed by its answers
(`SimulatedPanel.exists_history_handleLine`). So after the lines have come in, in whatever company, the panel reports
the outputs as the calls have switched them last, and an alarm that takes the report in knows all eight
(`Client.outputs_as_switched`).
-/

namespace AlarmPanel

/-! ## What a command switches -/

/-- The text of a command that switches an output is read back as that command. -/
theorem switch?_switchCommand {number : UInt8} {on : Bool} {command : String}
    (h : switchCommand number on = .ok command) :
    UserCommand.switch? command.toList = some (.setAuxOutput number on) ∧
      Text.isAscii command.toList = true ∧ command.length = 3 := by
  have hrange : number.toNat ∈ List.range' 1 auxOutputCount := by
    unfold switchCommand at h
    split at h
    next hrange => exact List.mem_range'_1.mpr ⟨hrange.1, by omega⟩
    next => cases h
  have hall : ∀ n ∈ List.range' 1 auxOutputCount, ∀ on : Bool,
      (switchCommand (UInt8.ofNat n) on).toOption.any fun command =>
        UserCommand.switch? command.toList = some (.setAuxOutput (UInt8.ofNat n) on) ∧
          Text.isAscii command.toList = true ∧ command.length = 3 := by
    decide +kernel
  have hread := hall number.toNat hrange on
  rw [UInt8.ofNat_toNat, h] at hread
  exact of_decide_eq_true hread

/-- No status request switches anything. -/
theorem switch?_of_statusCode {command : String} {code : UInt8} (h : statusCode command = .ok code) :
    UserCommand.switch? command.toList = none := by
  unfold statusCode at h
  dsimp only at h
  split at h
  next digits hcommand =>
    rw [hcommand]
    unfold UserCommand.switch?
    split
    next a b action heq =>
      obtain ⟨rfl, -⟩ := List.cons.inj heq
      exact ite_eq_right_iff.mpr fun _ => rfl
    next => rfl
  next => cases h

/-- What a call is to switch. -/
def Call.switch? : Call → Option (AuxOutput × Bool)
  | .setAuxOutput number on => AuxOutput.switch? number on
  | _ => none

/-- What a task with this role is to switch. -/
def Role.switch? : Role → Option (AuxOutput × Bool)
  | .call asked => asked.switch?
  | _ => none

/-- What a task may send is the command of its call, or it asks for the status. -/
theorem Role.command_cases {role : Role} {command : String} (h : command ∈ role.commands) :
    (∃ call, role = .call call ∧ call.command? = some command) ∨
      role.switch? = none ∧ ∃ code, statusCode command = .ok code := by
  have hupdate (hmem : command ∈ updateCommands) : ∃ code, statusCode command = .ok code := by
    simp only [updateCommands, List.mem_cons, List.not_mem_nil, or_false] at hmem
    rcases hmem with rfl | rfl | rfl <;> exact ⟨_, statusCode_command _⟩
  cases Role.transmits_of_mem h with
  | command hcommand => exact .inl ⟨_, rfl, hcommand⟩
  | update hmem => exact .inr ⟨rfl, hupdate hmem⟩
  | refresh hmem => exact .inr ⟨rfl, hupdate hmem⟩
  | ask hcode => exact .inr ⟨rfl, _, hcode⟩
  | panelInfo | auxOutputs => exact .inr ⟨rfl, _, statusCode_command _⟩

/-! ## Deliveries -/

/-- One thing that happens to a panel that the lines of a client are delivered to. -/
inductive Delivery
  /-- A line is taken in, up to its answer. -/
  | line (text : String)
  | other (action : PanelAction)

namespace Delivery

/-- What the panel does then. A line without a command is left out of account. -/
def action? : Delivery → Option PanelAction
  | .line text => (SimulatedPanel.commandOfLine? text.toList).map .accept
  | .other action => some action

def line? : Delivery → Option String
  | .line text => some text
  | .other _ => none

/-- What is switched then. -/
def switch? (delivery : Delivery) : Option (AuxOutput × Bool) := delivery.action?.bind PanelAction.switch?

/-- If nothing else switches an output, it is the lines that do. -/
theorem filterMap_switch? {deliveries : List Delivery}
    (hothers : ∀ action, .other action ∈ deliveries → action.switch? = none) :
    (deliveries.filterMap action?).filterMap PanelAction.switch? =
      (deliveries.filterMap line?).filterMap fun text => (line text).switch? := by
  rw [List.filterMap_filterMap, List.filterMap_filterMap]
  refine List.filterMap_congr fun delivery hmem => ?_
  cases delivery with
  | line text => rw [line?, Option.bind_some, switch?]
  | other action => exact hothers action hmem

end Delivery

namespace SimulatedPanel

/-- To send all answers at once is to send the first one again and again. -/
theorem performAll?_sendReplies (p : SimulatedPanel) :
    p.performAll? (List.replicate p.replies.length (.sendReply 0)) = some p.sendReplies := by
  generalize hreplies : p.replies = replies
  induction replies generalizing p with
  | nil =>
    rw [sendReplies_of_nil hreplies]
    rfl
  | cons update rest ih =>
    let q := ({ p with replies := rest } : SimulatedPanel).answer update
    have hfirst : p.perform? (.sendReply 0) = some q := by
      rw [perform?, if_pos (by rw [hreplies]; exact Nat.succ_pos _), sendReply, hreplies]
      rfl
    have hrest : q.replies = rest := congrArg replies (send_eq _ { p with replies := rest })
    have hsame : q.sendReplies = p.sendReplies := by
      rw [sendReplies, sendReplies, hrest, hreplies]
      rfl
    rw [List.length_cons, List.replicate_succ, performAll?, List.foldlM_cons, hfirst, ← hsame]
    exact ih q hrest

/-- Handling a line at once is to take it in and then to send the answers. -/
theorem exists_history_handleLine (text : String) (p : SimulatedPanel) :
    ∃ count, p.performAll? ((Delivery.line text).action?.toList ++ List.replicate count (.sendReply 0)) =
      some (p.handleLine text.toList) := by
  simp only [handleLine, Delivery.action?]
  cases commandOfLine? text.toList with
  | none => exact ⟨0, rfl⟩
  | some command =>
    have haccept : p.performAll? [.accept command] = some (p.accept command) := rfl
    exact ⟨_, performAll?_trans haccept (performAll?_sendReplies (p.accept command))⟩

end SimulatedPanel

/-! ## What the client writes -/

/-- The line that an effect writes. -/
def Effect.line? : Effect → Option String
  | .wrote _ line => some line
  | _ => none

namespace Client

variable {c d : Client} {strand : Strand} {task : Nat} {line : String} {role : Role} {number : UInt8} {on : Bool}
  {state : Task}

/-- The lines that have been written, in their order. -/
def lines (c : Client) : List String := c.effects.filterMap Effect.line?

/-- What the task is to switch that an effect has written a line for. -/
def switchOf? (c : Client) : Effect → Option (AuxOutput × Bool)
  | .wrote strand _ => (c.roleAt strand.task).bind Role.switch?
  | _ => none

/-- What the calls have switched whose lines have been written, in the order of these lines. -/
def switches (c : Client) : List (AuxOutput × Bool) := c.effects.filterMap c.switchOf?

/-- A panel reads from a line what the task that owns it is to switch. -/
theorem switch?_of_owns (howns : role.Owns line)
    (hrole : ∀ call command, role = .call call → call.command? = some command →
      ∃ number on, call = .setAuxOutput number on) :
    (Delivery.line line).switch? = role.switch? := by
  obtain ⟨command, hmem, hline⟩ := howns
  obtain rfl := eq_requestLine_of_requestLine? hline
  have hread (hascii : Text.isAscii command.toList = true) (hlength : command.length = 3) :
      (Delivery.line (requestLine command)).switch? =
        (UserCommand.switch? command.toList).bind UserCommand.switched? := by
    rw [Delivery.switch?, Delivery.action?, commandOfLine?_requestLine hascii (by rw [hlength]; decide)]
    rfl
  rcases Role.command_cases hmem with ⟨call, rfl, hcommand⟩ | ⟨hnone, code, hcode⟩
  · obtain ⟨number, on, rfl⟩ := hrole call command rfl hcommand
    obtain ⟨hswitch, hascii, hlength⟩ := switch?_switchCommand (toOption_eq_some_iff.mp hcommand)
    rw [hread hascii hlength, hswitch]
    rfl
  · obtain ⟨hascii, hlength⟩ := isAscii_of_statusCode hcode
    rw [hread hascii hlength, switch?_of_statusCode hcode, hnone]
    rfl

/-- What a panel switches that a client's lines are delivered to, and that nothing else switches, is what the client's
calls were to switch. -/
theorem switches_delivered {settings : ClientSettings} {handlers : Handlers} {link : Link}
    {history : List ClientAction} {deliveries : List Delivery}
    (h : (new settings handlers link).performAll? history = some c)
    (hcalls : ∀ task call command, c.roleAt task = some (.call call) → call.command? = some command →
      ∃ number on, call = .setAuxOutput number on)
    (hlines : deliveries.filterMap Delivery.line? = c.lines)
    (hothers : ∀ action, .other action ∈ deliveries → action.switch? = none) :
    (deliveries.filterMap Delivery.action?).filterMap PanelAction.switch? = c.switches := by
  rw [Delivery.filterMap_switch? hothers, hlines, lines, List.filterMap_filterMap, switches]
  refine List.filterMap_congr fun effect hmem => ?_
  cases effect with
  | wrote strand line =>
    have hline : line ∈ c.writesBy strand.task := List.mem_filterMap.mpr ⟨_, hmem, if_pos rfl⟩
    obtain ⟨role, hrole, howns⟩ := owns_of_mem_writesBy h hline
    have hread : (Delivery.line line).switch? = role.switch? := by
      refine switch?_of_owns howns fun call command hcall => ?_
      subst hcall
      exact hcalls strand.task call command hrole
    simp only [switchOf?, hrole, Effect.line?, Option.bind_some]
    exact hread
  | _ => rfl

/-! ## Calls that are out of range -/

/-- A call for an output that is not there is refused and writes nothing. -/
theorem refused_of_out_of_range {settings : ClientSettings} {handlers : Handlers} {link : Link}
    {history : List ClientAction} (h : (new settings handlers link).performAll? history = some c)
    (hrole : c.roleAt task = some (.call (.setAuxOutput number on))) (hrange : ¬(1 ≤ number ∧ number ≤ 8)) :
    c.writesBy task = [] ∧ c.Answers task (.setAuxOutput number on)
      (.failed (.invalidArgument (.auxOutputOutOfRange number))) := by
  have hrefused : switchCommand number on = .error (.invalidArgument (.auxOutputOutOfRange number)) := by
    rw [UInt8.le_iff_toNat_le, UInt8.le_iff_toNat_le] at hrange
    exact if_neg hrange
  constructor
  · refine List.eq_nil_iff_forall_not_mem.mpr fun line hline => ?_
    obtain ⟨role, howner, command, hmem, -⟩ := owns_of_mem_writesBy h hline
    obtain rfl := Option.some.inj (hrole.symm.trans howner)
    have hnone : (Call.setAuxOutput number on).commands = [] := by
      change (switchCommand number on).toOption.toList = []
      rw [hrefused]
      rfl
    rw [Role.commands, hnone] at hmem
    cases hmem
  · exact answers_of_answeredAtOnce h (answeredAtOnce_of_refused hrefused) hrole

/-! ## Calls that are in range -/

/-- A call for an output that is there is answered as done just when it has written its line. -/
theorem writesBy_of_in_range {settings : ClientSettings} {handlers : Handlers} {link : Link}
    {history : List ClientAction} (h : (new settings handlers link).performAll? history = some c)
    (hrole : c.roleAt task = some (.call (.setAuxOutput number on))) (hrange : 1 ≤ number ∧ number ≤ 8) :
    ∃ command, switchCommand number on = .ok command ∧ c.writesBy task =
      if c.tasks[task]? = some (.over (.call (.setAuxOutput number on)) (.answered .done))
        then [requestLine command] else [] := by
  rw [UInt8.le_iff_toNat_le, UInt8.le_iff_toNat_le] at hrange
  obtain ⟨command, hcommand⟩ : ∃ command, switchCommand number on = .ok command := ⟨_, if_pos hrange⟩
  obtain ⟨state, hstate, hcall⟩ := Option.map_eq_some_iff.mp hrole
  have hsends := writesBy_of_call h hstate hcall (toOption_eq_some_iff.mpr hcommand)
  refine ⟨command, hcommand, (hsends.lines_eq hcall).trans ?_⟩
  rw [hstate]
  simp only [Option.some.injEq]

/-! ## Outputs as they have been switched -/

/-- A client switches outputs, whatever else it does but sending other commands, and its lines are delivered in order
to a new panel, whatever its code is and whatever else happens to it that switches no output. Then a call for an
output that is not there is refused and has written nothing, and any other is done just when it has written its line.
The answer of the panel to a request for the outputs is one more line, which tells of just the outputs that were
switched on last. And an alarm that takes the answer in knows this of all eight. -/
theorem outputs_as_switched {clientSettings : ClientSettings} {handlers : Handlers} {link : Link}
    {history : List ClientAction} {panelSettings : PanelSettings} {clock : Nat → Timestamp}
    {deliveries : List Delivery} {p : SimulatedPanel}
    (hclient : (new clientSettings handlers link).performAll? history = some c)
    (hcalls : ∀ task call command, c.roleAt task = some (.call call) → call.command? = some command →
      ∃ number on, call = .setAuxOutput number on)
    (hlines : deliveries.filterMap Delivery.line? = c.lines)
    (hothers : ∀ action, .other action ∈ deliveries → action.switch? = none)
    (hpanel : (SimulatedPanel.new panelSettings clock).performAll? (deliveries.filterMap Delivery.action?) =
      some p) :
    (∀ task number on, c.roleAt task = some (.call (.setAuxOutput number on)) → ¬(1 ≤ number ∧ number ≤ 8) →
      c.writesBy task = [] ∧ c.Answers task (.setAuxOutput number on)
        (.failed (.invalidArgument (.auxOutputOutOfRange number)))) ∧
    (∀ task number on, c.roleAt task = some (.call (.setAuxOutput number on)) → 1 ≤ number ∧ number ≤ 8 →
      ∃ command, switchCommand number on = .ok command ∧ c.writesBy task =
        if c.tasks[task]? = some (.over (.call (.setAuxOutput number on)) (.answered .done))
          then [requestLine command] else []) ∧
    ∃ line event, (p.handleCommand "S18").frames = p.sendReplies.frames ++ [line] ∧
      Event.ofLine line = .ok event ∧
      event.body = .status (.auxOutputs (.ofList (Flag.all.filter fun output =>
        output.lastSwitch? c.switches = some true))) ∧
      ∀ (a : Alarm) (output : AuxOutput), (a.handle event).1.auxOutputs.get output.place =
        some (decide (output.lastSwitch? c.switches = some true)) := by
  refine ⟨fun task number on hrole hrange => refused_of_out_of_range hclient hrole hrange,
    fun task number on hrole hrange => writesBy_of_in_range hclient hrole hrange, ?_⟩
  have hhas (output : AuxOutput) :
      p.auxOutputs.has output = decide (output.lastSwitch? c.switches = some true) := by
    rw [Bool.eq_iff_iff, SimulatedPanel.has_auxOutputs_iff hpanel, switches_delivered hclient hcalls hlines hothers,
      decide_eq_true_eq]
  have hdeclared := SimulatedPanel.onlyDeclared_auxOutputs hpanel
  obtain ⟨line, event, hframes, hline, hbody⟩ := SimulatedPanel.frames_askAuxOutputs hdeclared
  have hset : p.auxOutputs = .ofList (Flag.all.filter fun output => output.lastSwitch? c.switches = some true) := by
    rw [← FlagSet.ofList_toList hdeclared]
    exact congrArg FlagSet.ofList (List.filter_congr fun output _ => hhas output)
  refine ⟨line, event, hframes, hline, hset ▸ hbody, fun a output => ?_⟩
  rw [Alarm.auxOutputs_handle, hbody, ← hhas]
  rfl

/-- Three calls at once, of which the last one to write its line switches output three off again, and a call for an
output nine. The panel is armed and tripped meanwhile. -/
theorem outputs_as_switched_interleaved :
    let steps (task count : Nat) : List ClientAction := List.replicate count (.go ⟨task, 0⟩ .own)
    let history : List ClientAction :=
      [.call (.setAuxOutput 3 true), .call (.setAuxOutput 9 true), .call (.setAuxOutput 3 false),
        .call (.setAuxOutput 5 true)] ++ steps 0 7 ++ steps 1 1 ++ steps 3 6 ++ steps 2 6
    let deliveries : List Delivery :=
      [.other (.arm .away), .line (requestLine "33*"), .other (.setZone 1 true), .line (requestLine "55*"),
        .other .trip, .other (.accept "S18"), .line (requestLine "33#")]
    ∃ c p, (new .default .none (.new false false false)).performAll? history = some c ∧
      (SimulatedPanel.new .default fun _ => ⟨⟨2024, 1, 1, by decide⟩, 0, 0, 0, by decide⟩).performAll?
          (deliveries.filterMap Delivery.action?) = some p ∧
      deliveries.filterMap Delivery.line? = c.lines ∧
      (c.writesBy 1 = [] ∧ c.Answers 1 (.setAuxOutput 9 true)
        (.failed (.invalidArgument (.auxOutputOutOfRange 9)))) ∧
      ∃ line event, (p.handleCommand "S18").frames = p.sendReplies.frames ++ [line] ∧
        Event.ofLine line = .ok event ∧ event.body = .status (.auxOutputs (.ofList [⟨4⟩])) ∧
        ∀ a : Alarm, (a.handle event).1.auxOutputs.get (AuxOutput.mk 4).place = some true ∧
          (a.handle event).1.auxOutputs.get (AuxOutput.mk 2).place = some false := by
  intro steps history deliveries
  have hclient : ((new .default .none (.new false false false)).performAll? history).any fun c =>
      c.tasks.map Task.role = [.call (.setAuxOutput 3 true), .call (.setAuxOutput 9 true),
        .call (.setAuxOutput 3 false), .call (.setAuxOutput 5 true)] ∧
      c.lines = [requestLine "33*", requestLine "55*", requestLine "33#"] ∧
      c.switches = [(⟨2⟩, true), (⟨4⟩, true), (⟨2⟩, false)] := by decide +kernel
  obtain ⟨c, hc, hrest⟩ := (Option.any_eq_true _ _).mp hclient
  obtain ⟨hroles, hlines, hswitches⟩ := of_decide_eq_true hrest
  have hpanel : ((SimulatedPanel.new .default fun _ => ⟨⟨2024, 1, 1, by decide⟩, 0, 0, 0, by decide⟩).performAll?
      (deliveries.filterMap Delivery.action?)).isSome = true := by decide +kernel
  obtain ⟨p, hp⟩ := Option.isSome_iff_exists.mp hpanel
  have hrole (task : Nat) : c.roleAt task = (c.tasks.map Task.role)[task]? := List.getElem?_map.symm
  have hcalls : ∀ task call command, c.roleAt task = some (.call call) → call.command? = some command →
      ∃ number on, call = .setAuxOutput number on := by
    intro task call command hcall _
    rw [hrole, hroles] at hcall
    have hmem := List.mem_of_getElem? hcall
    simp only [List.mem_cons, Role.call.injEq, List.not_mem_nil, or_false] at hmem
    rcases hmem with rfl | rfl | rfl | rfl <;> exact ⟨_, _, rfl⟩
  have hdelivered : deliveries.filterMap Delivery.line? = c.lines := by
    rw [hlines]
    rfl
  have hothers : ∀ delivery ∈ deliveries, delivery.line? = none → delivery.switch? = none := by decide +kernel
  obtain ⟨hrefused, -, line, event, hframes, hline, hbody, hknown⟩ :=
    outputs_as_switched hc hcalls hdelivered (fun action hmem => hothers _ hmem rfl) hp
  rw [hswitches] at hbody hknown
  exact ⟨c, p, hc, hp, hdelivered, hrefused 1 9 true (by rw [hrole, hroles]; rfl) (by decide), line, event, hframes,
    hline, hbody, fun a => ⟨hknown a ⟨4⟩, hknown a ⟨2⟩⟩⟩

end Client

end AlarmPanel
