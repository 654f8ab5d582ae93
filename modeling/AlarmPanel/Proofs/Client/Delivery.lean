import AlarmPanel.Proofs.Client.Writes
import AlarmPanel.Proofs.Panel.Requests

/-!
# Commands from the client to the panel

Whatever else the client does, a call that sends a command and is answered as done has written one request
line, and the panel reads the command back from it under a condition on its text alone
(`Client.command_delivered_iff`). The client checks no more of the text than its length.
-/

namespace AlarmPanel

namespace Client

variable {c : Client} {task : Nat} {call : Call} {command : String} {settings : ClientSettings}
  {handlers : Handlers} {link : Link} {actions : List ClientAction}

/-- A call that sends a command and is answered as done has written the line of its command once, and nothing
else. The line is one frame with the command in it just when the command is ASCII without a line feed, and then
a panel that is sent the line obeys the command and nothing else. -/
theorem command_delivered_iff (h : (new settings handlers link).performAll? actions = some c)
    (hcommand : call.command? = some command)
    (hdone : c.tasks[task]? = some (.over (.call call) (.answered .done))) :
    c.writesBy task = [requestLine command] ∧
      (IsOneFrame (Text.encodeUtf8 (requestLine command).toList) (Frame.request command) ↔
        Text.isAscii command.toList = true ∧ '\n' ∉ command.toList) ∧
      (Text.isAscii command.toList = true → '\n' ∉ command.toList →
        ∀ (s : Service) (client : Nat) (session : Session), s.session? client = some session →
          session.unfinished = [] →
          let t := s.feed client (Text.encodeUtf8 (requestLine command).toList)
          t.panel = s.panel.handleCommand command ∧ t.session? client = some session) := by
  obtain ⟨hline, hwrites⟩ := writesBy_of_call h hdone rfl hcommand
  have hshort := byteLength_of_requestLine? hline
  refine ⟨hwrites, isOneFrame_requestLine_iff hshort, fun hascii hfeed s client session hsession hended => ?_⟩
  exact Service.feed_of_isOneFrame ((isOneFrame_requestLine_iff hshort).mpr ⟨hascii, hfeed⟩) hsession hended

/-- A user arms the panel with a code, and the client has to dial first. -/
theorem command_delivered_iff_armed :
    let call := Call.armAway (some "1234")
    let actions := .call call :: List.replicate 7 (.go ⟨0, 0⟩ .own)
    let s : Service := ⟨.new .default fun _ => ⟨⟨2024, 1, 1, by decide⟩, 0, 0, 0, by decide⟩, []⟩
    ∃ c, (new .default .none (.new false false false)).performAll? actions = some c ∧
      c.tasks[0]? = some (.over (.call call) (.answered .done)) ∧
        c.writesBy 0 = [requestLine "A1234E"] ∧
          (s.connect.feed 0 (Text.encodeUtf8 (requestLine "A1234E").toList)).panel =
            s.panel.handleCommand "A1234E" := by
  intro call actions s
  have hrun : ((new .default .none (.new false false false)).performAll? actions).any fun c =>
      c.tasks[0]? = some (.over (.call call) (.answered .done)) := by decide +kernel
  obtain ⟨c, hc, hdone⟩ := (Option.any_eq_true _ _).mp hrun
  have hdone : c.tasks[0]? = some (.over (.call call) (.answered .done)) := of_decide_eq_true hdone
  have hcommand : call.command? = some "A1234E" := by decide +kernel
  obtain ⟨hwrites, -, hobeyed⟩ := command_delivered_iff hc hcommand hdone
  have hsession : s.connect.session? 0 = some ⟨[], 0⟩ := rfl
  exact ⟨c, hc, hdone, hwrites, (hobeyed (by decide) (by decide) s.connect 0 _ hsession rfl).1⟩

/-- A command with a line feed in it is sent and answered as done. The panel reads two lines, and obeys the
command in the second one, which nobody gave. -/
theorem line_feed_makes_another_command :
    let command := "X\n8300260AE"
    let actions := .call (.send command) :: List.replicate 7 (.go ⟨0, 0⟩ .own)
    let s : Service := ⟨.new .default fun _ => ⟨⟨2024, 1, 1, by decide⟩, 0, 0, 0, by decide⟩, []⟩
    ∃ c, (new .default .none (.new false false false)).performAll? actions = some c ∧
      c.tasks[0]? = some (.over (.call (.send command)) (.answered .done)) ∧
        c.writesBy 0 = [requestLine command] ∧
          ¬IsOneFrame (Text.encodeUtf8 (requestLine command).toList) (Frame.request command) ∧
            (s.panel.handleCommand command).state = .disarmed ∧
              (s.connect.feed 0 (Text.encodeUtf8 (requestLine command).toList)).panel.state = .exitDelay := by
  intro command actions s
  have hrun : ((new .default .none (.new false false false)).performAll? actions).any fun c =>
      c.tasks[0]? = some (.over (.call (.send command)) (.answered .done)) ∧
        c.writesBy 0 = [requestLine command] := by decide +kernel
  obtain ⟨c, hc, hrest⟩ := (Option.any_eq_true _ _).mp hrun
  obtain ⟨hdone, hwrites⟩ := of_decide_eq_true hrest
  have hlines : (Text.cutLines [] (Text.encodeUtf8 (requestLine command).toList)).1.length = 2 := by
    decide +kernel
  refine ⟨c, hc, hdone, hwrites, ?_, by decide +kernel, by decide +kernel⟩
  rintro ⟨line, hcut, -⟩
  rw [hcut] at hlines
  cases hlines

end Client

end AlarmPanel
