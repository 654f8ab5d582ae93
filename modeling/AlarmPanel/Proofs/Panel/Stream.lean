import AlarmPanel.Panel.Service
import Mathlib.Data.List.TakeWhile

/-!
# The commands in a stream

A client's stream gives commands: the payloads of the requests among its lines. `heeded` are those that the
service obeys, and `Service.stream_heeded` says that it obeys these and no others, whatever the bytes are, in
whatever parts they come and whatever else goes on. They are all of the stream's commands up to its first line
that is no text, and that line is where the law ends that lines without a command cost nothing
(`Service.command_lost_behind_broken_line`).
-/

namespace AlarmPanel

/-! ## Lines of bytes -/

/-- Whether a line of bytes is text. -/
def isText (line : List UInt8) : Bool := (Text.decodeUtf8? (Text.dropCarriageReturn line)).isSome

/-- The frame in a line of bytes, if it is text and spells one between its blanks. -/
def frameOfBytes? (line : List UInt8) : Option Frame :=
  (Text.decodeUtf8? (Text.dropCarriageReturn line)).bind fun text =>
    (Frame.decode (String.ofList (Text.trim text))).toOption

/-- The command in a line of bytes: the payload of a request. -/
def commandOfBytes? (line : List UInt8) : Option String :=
  (frameOfBytes? line).bind fun frame =>
    if frame.command = .userInterface ∧ frame.isResponse = false then some frame.data else none

/-- The commands in the lines before the first one that is no text. -/
def heeded (lines : List (List UInt8)) : List String := (lines.takeWhile isText).filterMap commandOfBytes?

theorem heeded_append (lines more : List (List UInt8)) :
    heeded (lines ++ more) = heeded lines ++ if lines.all isText then heeded more else [] := by
  induction lines with
  | nil => rfl
  | cons line lines ih =>
    cases hline : isText line with
    | false => simp [heeded, hline]
    | true =>
      simp only [heeded, List.cons_append, List.takeWhile_cons_of_pos hline, List.all_cons, hline,
        Bool.true_and, List.filterMap_cons] at ih ⊢
      cases commandOfBytes? line with
      | none => exact ih
      | some text => exact congrArg (text :: ·) ih

/-- As long as every line is text, no command is lost. -/
theorem heeded_of_all {lines : List (List UInt8)} (h : lines.all isText) :
    heeded lines = lines.filterMap commandOfBytes? := by
  rw [heeded, List.takeWhile_eq_self_iff.mpr (List.all_eq_true.mp h)]

/-- The line that is left when a stream ends, if it is not empty. -/
def lastLine (unfinished : List UInt8) : List (List UInt8) :=
  if unfinished.isEmpty then [] else [unfinished]

namespace SimulatedPanel

/-- Takes in the texts of commands one after the other. -/
def handleCommands (texts : List String) (p : SimulatedPanel) : SimulatedPanel :=
  texts.foldl (fun q text => q.handleCommand text) p

theorem commandOfLine?_eq_commandOfBytes? {line : List UInt8} {text : List Char}
    (h : Text.decodeUtf8? (Text.dropCarriageReturn line) = some text) :
    commandOfLine? text = commandOfBytes? line := by
  rw [commandOfLine?, commandOfBytes?, frameOfBytes?, h, Option.bind_some]
  cases Frame.decode (String.ofList (Text.trim text)) with
  | error e => rfl
  | ok frame => simp [Except.toOption]

end SimulatedPanel

/-! ## Histories of a service -/

/-- One thing that happens to a service. -/
inductive ServiceAction
  | connect
  | feed (client : Nat) (bytes : List UInt8)
  | disconnect (client : Nat)
  | panel (action : PanelAction)
  deriving DecidableEq, Repr

/-- The bytes that a client sends by an action. -/
def ServiceAction.bytesOf (client : Nat) : ServiceAction → List UInt8
  | .feed sender bytes => if sender = client then bytes else []
  | .connect | .disconnect _ | .panel _ => []

/-- The session of a client that connected when so many frames had been sent, after these bytes of it. -/
def Session.after? (since : Nat) (sent : List UInt8) : Option Session :=
  if (Text.cutLines [] sent).1.all isText then some ⟨(Text.cutLines [] sent).2, since⟩ else none

namespace Service

variable {s t u : Service} {client since : Nat} {session : Session} {sent bytes : List UInt8}
  {history : List ServiceAction} {action : ServiceAction}

/-- The service after the action, if it can happen now: only clients that have connected send or go. -/
def perform? (action : ServiceAction) (s : Service) : Option Service :=
  match action with
  | .connect => some s.connect
  | .feed client bytes => if client < s.sessions.length then some (s.feed client bytes) else none
  | .disconnect client => if client < s.sessions.length then some (s.disconnect client) else none
  | .panel action => (s.panel.perform? action).map fun panel => { s with panel }

/-- The service after a history, if each action of it can happen in its turn. -/
def performAll? (history : List ServiceAction) (s : Service) : Option Service :=
  history.foldlM (fun t action => t.perform? action) s

/-- The lines of a client are obeyed up to the first one that is no text. -/
theorem obeyLines_eq (lines : List (List UInt8)) (p : SimulatedPanel) :
    obeyLines lines p = (p.handleCommands (heeded lines), lines.all isText) := by
  induction lines generalizing p with
  | nil => rfl
  | cons line lines ih =>
    rw [obeyLines]
    split
    next text htext =>
      have hline : isText line = true := by rw [isText, htext, Option.isSome_some]
      have hheeded : heeded (line :: lines) = (commandOfBytes? line).toList ++ heeded lines := by
        rw [heeded, List.takeWhile_cons_of_pos hline, List.filterMap_cons, heeded]
        cases commandOfBytes? line <;> rfl
      rw [ih, SimulatedPanel.handleLine, SimulatedPanel.commandOfLine?_eq_commandOfBytes? htext, hheeded,
        List.all_cons, hline, Bool.true_and]
      cases commandOfBytes? line <;> rfl
    next hnone =>
      have hline : isText line = false := by rw [isText, hnone, Option.isSome_none]
      simp [heeded, hline, SimulatedPanel.handleCommands]

theorem feed_of_session (h : s.session? client = some session) (bytes : List UInt8) :
    s.feed client bytes =
      { panel := s.panel.handleCommands (heeded (Text.cutLines session.unfinished bytes).1)
        sessions := s.sessions.set client
          (if (Text.cutLines session.unfinished bytes).1.all isText then
            some { session with unfinished := (Text.cutLines session.unfinished bytes).2 }
          else none) } := by
  simp only [feed, h, obeyLines_eq]

theorem feed_of_gone (h : s.session? client = none) (bytes : List UInt8) : s.feed client bytes = s := by
  simp only [feed, h]

theorem disconnect_of_session (h : s.session? client = some session) :
    s.disconnect client =
      { panel := s.panel.handleCommands (heeded (lastLine session.unfinished))
        sessions := s.sessions.set client none } := by
  simp only [disconnect, h, obeyLines_eq]
  rfl

theorem disconnect_of_gone (h : s.session? client = none) : s.disconnect client = s := by
  simp only [disconnect, h]

/-! ## The session of one client -/

theorem sessions_feed_of_ne {sender : Nat} (h : sender ≠ client) (bytes : List UInt8) (s : Service) :
    (s.feed sender bytes).sessions[client]? = s.sessions[client]? := by
  cases hsession : s.session? sender with
  | none => rw [feed_of_gone hsession]
  | some session =>
    rw [feed_of_session hsession]
    exact List.getElem?_set_ne h

theorem sessions_disconnect_of_ne {sender : Nat} (h : sender ≠ client) (s : Service) :
    (s.disconnect sender).sessions[client]? = s.sessions[client]? := by
  unfold disconnect
  split
  next => rfl
  next => exact List.getElem?_set_ne h

theorem session?_of_sessions (h : t.sessions[client]? = some (Session.after? since sent)) :
    t.session? client = Session.after? since sent := by
  rw [session?, h, Option.join_some]

/-- The session of a client goes on from what it has sent. -/
theorem sessions_feed (h : t.sessions[client]? = some (Session.after? since sent)) (bytes : List UInt8) :
    (t.feed client bytes).sessions[client]? = some (Session.after? since (sent ++ bytes)) := by
  have hlt := (List.getElem?_eq_some_iff.mp h).1
  have hsession := session?_of_sessions h
  rw [Session.after?, Text.cutLines_append, List.all_append]
  cases htext : (Text.cutLines [] sent).1.all isText with
  | false =>
    have hgone : Session.after? since sent = none := by simp [Session.after?, htext]
    rw [feed_of_gone (hsession.trans hgone), h, hgone]
    rfl
  | true =>
    have hstays : Session.after? since sent = some ⟨(Text.cutLines [] sent).2, since⟩ := by
      simp [Session.after?, htext]
    rw [feed_of_session (hsession.trans hstays), Bool.true_and]
    exact List.getElem?_set_self hlt

/-- What happens to others leaves the session of a client that does not go alone. -/
theorem sessions_of_perform? (hact : t.perform? action = some u) (hstay : action ≠ .disconnect client)
    (h : t.sessions[client]? = some (Session.after? since sent)) :
    u.sessions[client]? = some (Session.after? since (sent ++ action.bytesOf client)) := by
  have hlt := (List.getElem?_eq_some_iff.mp h).1
  cases action with
  | connect =>
    cases hact
    rw [ServiceAction.bytesOf, List.append_nil, connect, List.getElem?_append_left hlt]
    exact h
  | feed sender bytes =>
    obtain ⟨-, hu⟩ := Option.ite_none_right_eq_some.mp hact
    cases hu
    rw [ServiceAction.bytesOf]
    split
    next hsender => exact hsender ▸ sessions_feed (hsender ▸ h) bytes
    next hsender => rwa [List.append_nil, sessions_feed_of_ne hsender]
  | disconnect sender =>
    obtain ⟨-, hu⟩ := Option.ite_none_right_eq_some.mp hact
    cases hu
    have hsender : sender ≠ client := fun heq => hstay (congrArg _ heq)
    rwa [ServiceAction.bytesOf, List.append_nil, sessions_disconnect_of_ne hsender]
  | panel action =>
    obtain ⟨panel, -, hu⟩ := Option.map_eq_some_iff.mp hact
    cases hu
    rwa [ServiceAction.bytesOf, List.append_nil]

theorem sessions_of_performAll? (hrun : t.performAll? history = some u)
    (hstay : .disconnect client ∉ history) (h : t.sessions[client]? = some (Session.after? since sent)) :
    u.sessions[client]? =
      some (Session.after? since (sent ++ history.flatMap (·.bytesOf client))) := by
  induction history generalizing t sent with
  | nil =>
    cases hrun
    rwa [List.flatMap_nil, List.append_nil]
  | cons action history ih =>
    obtain ⟨v, hv : t.perform? action = some v, hu⟩ := Option.bind_eq_some_iff.mp hrun
    obtain ⟨hfirst, hrest⟩ := not_or.mp (mt List.mem_cons.mpr hstay)
    have hnext := ih hu hrest (sessions_of_perform? hv (Ne.symm hfirst) h)
    rwa [List.append_assoc, ← List.flatMap_cons] at hnext

/-- The next bytes of a client pass its next commands to the panel, as long as it is listened to. -/
theorem panel_feed (h : t.session? client = Session.after? since sent) (bytes : List UInt8) :
    ∃ commands,
      heeded (Text.cutLines [] (sent ++ bytes)).1 = heeded (Text.cutLines [] sent).1 ++ commands ∧
        (t.feed client bytes).panel = t.panel.handleCommands commands := by
  rw [Text.cutLines_append, heeded_append]
  refine ⟨_, rfl, ?_⟩
  split
  next htext => rw [feed_of_session (h.trans (if_pos htext))]
  next htext =>
    rw [feed_of_gone (h.trans (if_neg htext))]
    rfl

theorem panel_disconnect (h : t.session? client = Session.after? since sent) :
    ∃ commands,
      heeded ((Text.cutLines [] sent).1 ++ lastLine (Text.cutLines [] sent).2) =
          heeded (Text.cutLines [] sent).1 ++ commands ∧
        (t.disconnect client).panel = t.panel.handleCommands commands := by
  rw [heeded_append]
  refine ⟨_, rfl, ?_⟩
  split
  next htext => rw [disconnect_of_session (h.trans (if_pos htext))]
  next htext =>
    rw [disconnect_of_gone (h.trans (if_neg htext))]
    rfl

theorem isSome_after? (since : Nat) (sent : List UInt8) :
    (Session.after? since sent).isSome = (Text.cutLines [] sent).1.all isText := by
  unfold Session.after?
  split
  next htext => rw [htext, Option.isSome_some]
  next htext => rw [Bool.eq_false_iff.mpr htext, Option.isSome_none]

/-- Whatever a client has sent since it connected, and whatever happened meanwhile, its next bytes pass those
commands to the panel that they add to the heeded ones of its stream, in order, and nothing else. The client
is listened to as long as all its lines are text, and when it goes, the line that it has not ended still
counts. -/
theorem stream_heeded (s : Service) (hrun : s.connect.performAll? history = some t)
    (hstay : .disconnect s.sessions.length ∉ history) (bytes : List UInt8) :
    let client := s.sessions.length
    let sent := history.flatMap (·.bytesOf client)
    let lines := (Text.cutLines [] sent).1
    let unfinished := (Text.cutLines [] sent).2
    let more := (Text.cutLines [] (sent ++ bytes)).1
    (∃ commands, heeded more = heeded lines ++ commands ∧
      (t.feed client bytes).panel = t.panel.handleCommands commands) ∧
    (more.all isText → heeded more = more.filterMap commandOfBytes?) ∧
    ((t.feed client bytes).session? client).isSome = more.all isText ∧
    ∃ commands, heeded (lines ++ lastLine unfinished) = heeded lines ++ commands ∧
      (t.disconnect client).panel = t.panel.handleCommands commands := by
  intro client sent lines unfinished more
  have hfresh : s.connect.sessions[client]? = some (Session.after? s.panel.frames.length []) := by
    rw [connect, List.getElem?_append_right (Nat.le_refl _), Nat.sub_self]
    rfl
  have hsessions : t.sessions[client]? = some (Session.after? s.panel.frames.length sent) :=
    sessions_of_performAll? hrun hstay hfresh
  have hsession := session?_of_sessions hsessions
  refine ⟨panel_feed hsession bytes, heeded_of_all, ?_, panel_disconnect hsession⟩
  rw [session?_of_sessions (sessions_feed hsessions bytes), isSome_after?]

/-- The request that arms the panel stands behind a line with a byte that begins no character: it is a command
of the stream, and the panel does not get it. -/
theorem command_lost_behind_broken_line :
    let s : Service := ⟨.new .default fun _ => ⟨⟨2024, 1, 1, by decide⟩, 0, 0, 0, by decide⟩, []⟩
    let bytes := 0xff :: Text.lineFeed :: Text.encodeUtf8 "8300260AE17\n".toList
    let t := s.connect.feed 0 bytes
    (Text.cutLines [] bytes).1.filterMap commandOfBytes? = ["AE"] ∧
      (s.panel.handleCommands ["AE"]).state = .exitDelay ∧
        t.panel.state = .disarmed ∧ t.panel.frames = [] ∧ t.session? 0 = none := by
  decide +kernel

/-- A request comes in two parts, with another client and the panel's own business in between, and broken
bytes behind it. -/
theorem stream_heeded_interleaved :
    let s : Service := ⟨.new .default fun _ => ⟨⟨2024, 1, 1, by decide⟩, 0, 0, 0, by decide⟩, []⟩
    let first := Text.encodeUtf8 "noise\n8300260".toList
    let next := Text.encodeUtf8 "AE17\n".toList ++ [0xff, Text.lineFeed]
    let history := [.feed 0 first, .connect, .feed 1 [0xff, Text.lineFeed], .panel (.setZone 2 true)]
    ∃ t, s.connect.performAll? history = some t ∧ .disconnect 0 ∉ history ∧
      (t.feed 0 next).panel = t.panel.handleCommands ["AE"] ∧ (t.feed 0 next).session? 0 = none := by
  intro s first next history
  have hrun : (s.connect.performAll? history).isSome := by decide +kernel
  obtain ⟨t, ht⟩ := Option.isSome_iff_exists.mp hrun
  have hstay : .disconnect 0 ∉ history := by decide
  have hlines : heeded (Text.cutLines [] first).1 = [] := by decide +kernel
  have hmore : heeded (Text.cutLines [] (first ++ next)).1 = ["AE"] := by decide +kernel
  have hbroken : (Text.cutLines [] (first ++ next)).1.all isText = false := by decide +kernel
  obtain ⟨⟨commands, hcommands, hpanel⟩, -, hlistened, -⟩ := stream_heeded s ht hstay next
  have hsent : history.flatMap (·.bytesOf s.sessions.length) = first := by decide +kernel
  rw [hsent, hmore, hlines, List.nil_append] at hcommands
  rw [hsent, hbroken] at hlistened
  exact ⟨t, ht, hstay, hcommands ▸ hpanel, Option.not_isSome_iff_eq_none.mp (Bool.eq_false_iff.mp hlistened)⟩

end Service

end AlarmPanel
