import AlarmPanel.Proofs.Alarm.Parts

/-!
# Events that are delivered again

An event sets each part of an alarm to what it tells of it, or moves the state on by a sign that holds still when it
comes again (`ArmingSign.state_state`). So an alarm that has taken an event in stands as it is when it takes the same
event in once more, and lists no changes, whatever it knew before (`Alarm.handle_handle`). Whoever delivers events
more than once does no harm by it (`Alarm.redelivery_harmless`).
-/

namespace AlarmPanel

/-- A sign that comes again leaves the state where it has put it. -/
theorem ArmingSign.state_state (infer : Bool) (before : ArmingState) (sign : ArmingSign) :
    sign.state infer (sign.state infer before) = sign.state infer before := by
  cases sign with
  | alarmOver | exitDelayOver | notArmed =>
    -- These look at the state that they find, and do not find again the one that they have changed.
    simp only [state]
    grind
  | _ => rfl

/-- A value that is told twice is known as it was told. -/
theorem getD_getD {β : Type} (told : Option β) (value : β) : told.getD (told.getD value) = told.getD value := by
  cases told <;> rfl

namespace Alarm

theorem state_handle_handle (event : Event) (a : Alarm) :
    ((a.handle event).1.handle event).1.state = (a.handle event).1.state := by
  rw [state_handle event (a.handle event).1, inferArming_handle, state_handle event a]
  cases event.body.sign? with
  | none => rfl
  | some sign => exact sign.state_state a.inferArming a.state

theorem panel_handle_handle (event : Event) (a : Alarm) :
    ((a.handle event).1.handle event).1.panel = (a.handle event).1.panel := by
  rw [panel_handle event (a.handle event).1, panel_handle event a, Option.or_assoc, Option.or_self]

/-- An event that an alarm has taken in leaves it as it is when it comes again. -/
theorem handle_handle_fst (event : Event) (a : Alarm) :
    ((a.handle event).1.handle event).1 = (a.handle event).1 := by
  apply eq_of_parts
  · exact inferArming_handle event _
  · exact state_handle_handle event a
  · rw [mode_handle event (a.handle event).1, mode_handle event a, getD_getD]
  · exact panel_handle_handle event a
  · intro i
    rw [zones_handle i event (a.handle event).1, zones_handle i event a, getD_getD]
  · intro output
    rw [auxOutputs_handle output event (a.handle event).1, auxOutputs_handle output event a, getD_getD]

/-- It makes no changes then. -/
theorem handle_handle (event : Event) (a : Alarm) :
    (a.handle event).1.handle event = ((a.handle event).1, []) := by
  have hsame := handle_handle_fst event a
  have hchanges : ((a.handle event).1.handle event).2 = [] := by
    rw [(update_handle event _).snd_eq, hsame, differences_self]
  exact Prod.ext hsame hchanges

/-- However often an event comes after it has been taken in, nothing comes of it. -/
theorem again_replicate (event : Event) (count : Nat) (a : Alarm) :
    (a.handle event).1.after (List.replicate count event) = (a.handle event).1 ∧
      (a.handle event).1.changes (List.replicate count event) = [] := by
  induction count with
  | zero => exact ⟨rfl, rfl⟩
  | succ count ih =>
    obtain ⟨hafter, hchanges⟩ := ih
    constructor
    · rw [List.replicate_succ, after, List.foldl_cons, handle_handle]
      exact hafter
    · rw [List.replicate_succ, changes, handle_handle, List.nil_append]
      exact hchanges

/-- The second delivery of an event makes no changes and leaves the whole alarm as the first one has made it. So it
makes no difference, neither to the alarm nor to the changes that are listed on the way, how many times over each of
the events of a history is delivered. -/
theorem redelivery_harmless :
    (∀ (a : Alarm) (event : Event), (a.handle event).1.handle event = ((a.handle event).1, [])) ∧
      ∀ (a : Alarm) (deliveries : List (Event × Nat)),
        let events := deliveries.map Prod.fst
        let delivered := deliveries.flatMap fun delivery => List.replicate (delivery.2 + 1) delivery.1
        a.after delivered = a.after events ∧ a.changes delivered = a.changes events := by
  refine ⟨fun a event => handle_handle event a, fun a deliveries => ?_⟩
  dsimp only
  induction deliveries generalizing a with
  | nil => exact ⟨rfl, rfl⟩
  | cons delivery deliveries ih =>
    obtain ⟨event, count⟩ := delivery
    obtain ⟨hafter, hchanges⟩ := again_replicate event count a
    obtain ⟨ihafter, ihchanges⟩ := ih (a.handle event).1
    have hone : a.after (List.replicate (count + 1) event) = (a.handle event).1 := hafter
    have hnone : a.changes (List.replicate (count + 1) event) = (a.handle event).2 := by
      rw [List.replicate_succ, changes, hchanges, List.append_nil]
    rw [List.flatMap_cons, List.map_cons]
    constructor
    · rw [after_append, hone, ihafter]
      rfl
    · rw [changes_append, hone, hnone, ihchanges]
      rfl

end Alarm

end AlarmPanel
