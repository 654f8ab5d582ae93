import AlarmPanel.Proofs.Event.RoundTrip
import AlarmPanel.Proofs.Panel.Moves

/-!
# The frames that a panel sends

What a panel sends is read back as events (`SimulatedPanel.Sent`). A report comes back as it was, as long as
the wall clock shows a year of this century, and an answer comes back as far as its payload carries it.
-/

namespace AlarmPanel

/-- The wall clock shows a time of the years that a frame can carry. -/
def ClockInCentury (clock : Nat → Timestamp) : Prop :=
  ∀ n, 2000 ≤ (clock n).date.year ∧ (clock n).date.year ≤ 2099

namespace SimulatedPanel

variable {p : SimulatedPanel} {events : List Event}

/-- The frames that the panel has sent are read back as these events. -/
def Sent (p : SimulatedPanel) (events : List Event) : Prop := p.frames.mapM Event.ofLine = .ok events

theorem sent_send {event told : Event} {frame : Frame} (h : p.Sent events)
    (hframe : event.toFrame = .ok frame) (htold : Event.ofLine frame.encode = .ok told) :
    (p.send event).Sent (events ++ [told]) := by
  have hframes : (p.send event).frames = p.frames ++ [frame.encode] := by
    simp only [send, hframe]
  rw [Sent, hframes, List.mapM_append]
  refine bind_eq_ok_iff.mpr ⟨events, h, bind_eq_ok_iff.mpr ⟨[told], ?_, rfl⟩⟩
  rw [List.mapM_cons]
  exact bind_eq_ok_iff.mpr ⟨told, htold, rfl⟩

/-- The event of a report. -/
def reported (type : EventType) (zone : UInt8) (p : SimulatedPanel) : Event :=
  { address := some 0, timestamp := some (p.clock p.frames.length), body := .system ⟨type, zone, 0⟩ }

theorem sent_report (hclock : ClockInCentury p.clock) (h : p.Sent events) (type : EventType) (zone : UInt8)
    (hzone : zone ≤ 99) : (p.report type zone).Sent (events ++ [p.reported type zone]) := by
  let event : SystemEvent := ⟨type, zone, 0⟩
  have hencode : event.encode = .ok (String.ofList event.digits) :=
    SystemEvent.encode_eq_ok_iff.mpr ⟨hzone, rfl⟩
  refine sent_send h (Event.toFrame_system_eq_ok_iff.mpr ⟨_, hencode, rfl⟩)
    (Event.ofLine_system_of_faithful hencode ⟨?_, by simp⟩)
  rintro t ⟨⟩
  exact hclock _

/-- The event of an answer, as far as its payload carries it. -/
def answered (update : StatusUpdate) : Event :=
  { address := some 0, timestamp := none, body := .status update.carried }

theorem frames_answer (update : StatusUpdate) (p : SimulatedPanel) :
    (p.answer update).frames = p.frames ++ [(Event.statusFrame (some 0) none update).encode] := rfl

theorem sent_answer (h : p.Sent events) (update : StatusUpdate) :
    (p.answer update).Sent (events ++ [answered update]) :=
  sent_send h rfl (Event.ofLine_statusFrame (some 0) update)

/-- Reports in a row are read back in the same order. -/
theorem exists_sent_reports (hclock : ClockInCentury p.clock) (types : List EventType) :
    ∃ told, told.map Event.body = types.map (fun type => .system ⟨type, 0, 0⟩) ∧
      ∀ {events}, p.Sent events →
        (types.foldl (fun q type => q.report type 0) p).Sent (events ++ told) := by
  induction types generalizing p with
  | nil => exact ⟨[], rfl, fun h => by rwa [List.append_nil]⟩
  | cons type types ih =>
    have hclock' : ClockInCentury (p.report type 0).clock := by
      rw [report, send_eq]
      exact hclock
    obtain ⟨told, hbody, htold⟩ := ih hclock'
    refine ⟨p.reported type 0 :: told, congrArg (_ :: ·) hbody, fun h => ?_⟩
    have hall := htold (sent_report hclock h type 0 (by decide))
    rwa [List.append_assoc] at hall

/-- What a move reports is read back as the events of the move. -/
theorem exists_sent_moveTo (hclock : ClockInCentury p.clock) (next : PanelState) :
    ∃ told,
      told.map Event.body =
          (transitionEvents p.state next p.mode).map (fun type => .system ⟨type, 0, 0⟩) ∧
        ∀ {events}, p.Sent events → (p.moveTo next).Sent (events ++ told) := by
  have hquiet {events : List Event} (h : p.Sent events) :
      ({ (if next = .disarmed then p else p.stopActivity) with state := next } :
        SimulatedPanel).Sent events := by
    split <;> exact h
  obtain ⟨told, hbody, htold⟩ := exists_sent_reports
    (p := { (if next = .disarmed then p else p.stopActivity) with state := next })
    (by split <;> exact hclock) (transitionEvents p.state next p.mode)
  exact ⟨told, hbody, fun h => htold (hquiet h)⟩

end SimulatedPanel

end AlarmPanel
