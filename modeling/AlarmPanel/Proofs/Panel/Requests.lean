import AlarmPanel.Client.Request
import AlarmPanel.Proofs.Frame.RoundTrip
import AlarmPanel.Proofs.Panel.Stream
import AlarmPanel.Proofs.Text.Lines

/-!
# Requests in a stream

A command travels as the text of a request, without any marks around it. So it gets to the panel as it is
just when it is ASCII and has no line feed in it (`isOneFrame_requestLine_iff`): other characters make the line
unreadable, and a line feed makes two lines of it, of which the second may be a request of its own.
-/

namespace AlarmPanel

/-- The bytes are one line, and the line spells the frame. -/
def IsOneFrame (bytes : List UInt8) (frame : Frame) : Prop :=
  ∃ line, Text.cutLines [] bytes = ([line], []) ∧ frameOfBytes? line = some frame

variable {command : String}

theorem toList_requestLine (command : String) :
    (requestLine command).toList = (Frame.request command).encode.toList ++ ['\r', '\n'] := by
  rw [requestLine, String.toList_append]
  rfl

/-- The fields around the text of a request have no line feed. -/
theorem count_encode_request (command : String) :
    (Frame.request command).encode.toList.count '\n' = command.toList.count '\n' := by
  have hfield (letters : Text.LetterCase) (width n : Nat) :
      (Text.writeHex letters width n).count '\n' = 0 := by
    refine List.count_eq_zero.mpr fun hmem => ?_
    have hblank := Text.isBlank_of_mem_writeHex hmem
    exact absurd hblank (by decide)
  rw [Frame.toList_encode, LineParts.line]
  simp only [List.count_append]
  have haddress : (Frame.request command).parts.address.count '\n' = 0 := hfield ..
  have htime : (Frame.request command).parts.time = [] := rfl
  have hdata : (Frame.request command).parts.data = command.toList := rfl
  rw [haddress, htime, hdata]
  simp only [Frame.parts, hfield, List.count_nil, Nat.zero_add, Nat.add_zero]

theorem isAscii_requestLine (h : Text.isAscii command.toList = true) :
    Text.isAscii (requestLine command).toList = true := by
  rw [toList_requestLine, Text.isAscii_append, Frame.isAscii_encode, Frame.request, h]
  rfl

/-- A request begins and ends with a digit, so it is not trimmed. -/
theorem trim_encode_request (command : String) :
    Text.trim (Frame.request command).encode.toList = (Frame.request command).encode.toList := by
  have hline : (Frame.request command).encode.toList = (Frame.request command).body ++
      Text.writeHex .upper 2 (Frame.request command).checksum.toNat := String.toList_ofList
  apply Text.trim_eq_self
  · intro c hc
    have hstart : Text.writeHex .lower 2 (Frame.request command).start.toNat = ['8', '3'] := by
      have hrequest : (Frame.request command).start = 0x83 := rfl
      rw [hrequest]
      decide
    rw [hline, Frame.body, hstart] at hc
    simp only [List.append_assoc, List.cons_append, List.head?_cons, Option.mem_def, Option.some.injEq] at hc
    subst hc
    decide
  · intro c hc
    rw [hline, Text.writeHex, ← List.append_assoc, List.getLast?_concat] at hc
    obtain rfl := Option.some.inj hc
    exact Text.isBlank_hexDigit .upper (Nat.mod_lt _ (by decide))

/-- Only ASCII text comes back out of a line. -/
theorem isAscii_of_frameOfBytes? {line : List UInt8} (h : frameOfBytes? line = some (Frame.request command)) :
    Text.isAscii command.toList = true := by
  obtain ⟨text, -, hframe⟩ := Option.bind_eq_some_iff.mp h
  obtain ⟨hascii, p, start, length, hline, hspell⟩ := Frame.decode_eq_ok_iff.mp (toOption_eq_some_iff.mp hframe)
  have hdata : command.toList = p.data := by
    have hcommand : command = String.ofList p.data := hspell.data_eq
    rw [hcommand, String.toList_ofList]
  rw [← hline, LineParts.line] at hascii
  simp only [Text.isAscii_append, Bool.and_eq_true] at hascii
  rw [hdata]
  exact hascii.1.1.2

theorem faithful_request (hascii : Text.isAscii command.toList = true) (hshort : command.length ≤ longestCommand) :
    (Frame.request command).Faithful := by
  simp only [Frame.Faithful, Frame.request, longestCommand] at hshort ⊢
  exact ⟨hascii, by decide, by simp, by simpa using hshort⟩

/-- The panel finds the command again in its line. -/
theorem commandOfLine?_requestLine (hascii : Text.isAscii command.toList = true)
    (hshort : command.length ≤ longestCommand) :
    SimulatedPanel.commandOfLine? (requestLine command).toList = some command := by
  have hend : ['\r', '\n'].all Text.isBlank = true := by decide
  rw [SimulatedPanel.commandOfLine?, toList_requestLine, Text.trim_append_blank (List.all_eq_true.mp hend),
    trim_encode_request, String.ofList_toList, Frame.decode_encode_of_faithful (faithful_request hascii hshort)]
  exact if_pos ⟨rfl, Bool.false_ne_true⟩

theorem isOneFrame_of_isAscii (hascii : Text.isAscii command.toList = true) (hfeed : '\n' ∉ command.toList)
    (hshort : command.length ≤ longestCommand) :
    IsOneFrame (Text.encodeUtf8 (requestLine command).toList) (Frame.request command) := by
  let cs := (Frame.request command).encode.toList
  have hcs : Text.isAscii cs = true := (Frame.isAscii_encode _).trans hascii
  have hline : Text.encodeUtf8 (requestLine command).toList =
      Text.encodeUtf8 cs ++ [Text.carriageReturn] ++ [Text.lineFeed] := by
    rw [toList_requestLine, Text.encodeUtf8_append, List.append_assoc]
    rfl
  have hnone : Text.lineFeed ∉ Text.encodeUtf8 cs ++ [Text.carriageReturn] := by
    have hcount : (Text.encodeUtf8 cs).count Text.lineFeed = 0 := by
      rw [Text.count_encodeUtf8 hcs, count_encode_request, List.count_eq_zero]
      exact hfeed
    rw [List.mem_append, not_or]
    exact ⟨List.count_eq_zero.mp hcount, by decide⟩
  refine ⟨Text.encodeUtf8 cs ++ [Text.carriageReturn], ?_, ?_⟩
  · rw [hline, Text.cutLines_concat hnone]
  · rw [frameOfBytes?, Text.dropCarriageReturn_concat, Text.decodeUtf8?_encodeUtf8 hcs, Option.bind_some,
      trim_encode_request, String.ofList_toList, Frame.decode_encode_of_faithful (faithful_request hascii hshort)]
    rfl

/-- A command that is short enough to be sent gets through as one frame with this text in it just when it is
ASCII without a line feed. -/
theorem isOneFrame_requestLine_iff (hshort : Text.byteLength command.toList ≤ longestCommand) :
    IsOneFrame (Text.encodeUtf8 (requestLine command).toList) (Frame.request command) ↔
      Text.isAscii command.toList = true ∧ '\n' ∉ command.toList := by
  constructor
  · rintro ⟨line, hcut, hframe⟩
    have hascii := isAscii_of_frameOfBytes? hframe
    refine ⟨hascii, fun hmem => ?_⟩
    -- A line feed in the command would end a line of its own.
    have hlines := Text.length_cutLines [] (Text.encodeUtf8 (requestLine command).toList)
    have hpos : 0 < command.toList.count '\n' := List.count_pos_iff.mpr hmem
    rw [hcut, Text.count_encodeUtf8 (isAscii_requestLine hascii), toList_requestLine,
      List.count_append, count_encode_request] at hlines
    have hend : ['\r', '\n'].count '\n' = 1 := by decide
    rw [hend, List.length_singleton] at hlines
    omega
  · rintro ⟨hascii, hfeed⟩
    rw [Text.byteLength_eq_length hascii, String.length_toList] at hshort
    exact isOneFrame_of_isAscii hascii hfeed hshort

/-- What the service does with one frame: it obeys the command, and goes on listening as before. -/
theorem Service.feed_of_isOneFrame {bytes : List UInt8} (h : IsOneFrame bytes (Frame.request command))
    {s : Service} {client : Nat} {session : Session} (hsession : s.session? client = some session)
    (hended : session.unfinished = []) :
    (s.feed client bytes).panel = s.panel.handleCommand command ∧
      (s.feed client bytes).session? client = some session := by
  obtain ⟨line, hcut, hframe⟩ := h
  have htext : isText line = true := by
    obtain ⟨text, htext, -⟩ := Option.bind_eq_some_iff.mp hframe
    rw [isText, htext, Option.isSome_some]
  have hcommand : commandOfBytes? line = some command := by
    rw [commandOfBytes?, hframe]
    rfl
  have hall : [line].all isText = true := by simp [htext]
  have hheeded : heeded [line] = [command] := by
    rw [heeded_of_all hall, List.filterMap_cons_some hcommand, List.filterMap_nil]
  have hlt : client < s.sessions.length := by
    have hentry := Option.join_eq_some_iff.mp hsession
    exact (List.getElem?_eq_some_iff.mp hentry).1
  rw [Service.feed_of_session hsession, hended, hcut, hheeded, if_pos hall, ← hended]
  refine ⟨rfl, ?_⟩
  rw [Service.session?, List.getElem?_set_self hlt, Option.join_some]

end AlarmPanel
