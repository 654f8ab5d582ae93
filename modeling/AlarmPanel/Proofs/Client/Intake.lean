import AlarmPanel.Proofs.Alarm.Events
import AlarmPanel.Proofs.Client.Outlook

/-!
# The alarm as a fold of the lines

What a client knows and reports is a matter of the lines that it takes in and of nothing else: the alarm is
the fold of their events (`Alarm.after`), and the reports are those of the fold (`Alarm.reports`), each made
to its handler and by broadcast before the next one. Handlers have no say in it. `Client.Follows` says so of
two clients the one of which comes from the other; it holds of every line, and so of every history.
-/

namespace AlarmPanel

namespace Alarm

/-- What is reported when an alarm takes in events one after the other. -/
def reports : List Event → Alarm → List Report
  | [], _ => []
  | event :: events, a => a.reportsOf event ++ (a.handle event).1.reports events

theorem reports_append (es fs : List Event) (a : Alarm) :
    a.reports (es ++ fs) = a.reports es ++ (a.after es).reports fs := by
  induction es generalizing a with
  | nil => rfl
  | cons event es ih =>
    rw [List.cons_append, reports, ih, reports, List.append_assoc]
    rfl

end Alarm

namespace Client

variable {c d e : Client}

/-! ## Lines in a row -/

/-- The client `d` comes from `c` by taking in the events: beside them nothing has changed the alarm and
nothing has been reported. -/
structure Follows (events : List Event) (c d : Client) : Prop where
  handlers_eq : d.handlers = c.handlers
  alarm_eq : d.alarm = c.alarm.after events
  reported_eq : d.effects.filter Effect.reports =
    c.effects.filter Effect.reports ++ (c.alarm.reports events).flatMap c.handlers.effects

theorem Follows.trans {es fs : List Event} (hcd : Follows es c d) (hde : Follows fs d e) :
    Follows (es ++ fs) c e := by
  refine ⟨hde.handlers_eq.trans hcd.handlers_eq, ?_, ?_⟩
  · rw [hde.alarm_eq, hcd.alarm_eq, Alarm.after_append]
  · rw [hde.reported_eq, hcd.reported_eq, hcd.handlers_eq, hcd.alarm_eq, Alarm.reports_append,
      List.flatMap_append, List.append_assoc]

end Client

end AlarmPanel
