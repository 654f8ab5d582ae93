import AlarmPanel.Proofs.Alarm.Arming
import AlarmPanel.Proofs.Alarm.Changes
import Mathlib.Data.List.Induction

/-!
# What is told of the mode

The mode is told together with the state, when the state changes. So whoever goes by the changes always knows
the state, but may miss a change of the mode under a state that stays (`Alarm.UntoldMode`): another mode while
the panel is about to be armed, and the end of a mode that a disarmed panel has kept. Such a mode is kept where
an arming status counts as disarmed (`Alarm.disarmed_in_mode_iff`), which says nothing of the mode.
-/

namespace AlarmPanel

/-- The state and the mode that a change tells. -/
def Change.arming? : Change → Option (ArmingState × Option ArmingMode)
  | .arming state mode => some (state, mode)
  | .zone _ _ => none
  | .auxOutput _ _ => none

namespace Alarm

variable {a : Alarm}

/-- The state and the mode together. -/
def arming (a : Alarm) : ArmingState × Option ArmingMode := (a.state, a.mode)

/-- What the changes tell last of the state and the mode, to whom knows of `known` before. -/
def lastTold (known : ArmingState × Option ArmingMode) (changes : List Change) :
    ArmingState × Option ArmingMode :=
  (changes.filterMap Change.arming?).getLast?.getD known

theorem lastTold_append (known : ArmingState × Option ArmingMode) (first second : List Change) :
    lastTold known (first ++ second) = lastTold (lastTold known first) second := by
  simp only [lastTold, List.filterMap_append, List.getLast?_append]
  cases (second.filterMap Change.arming?).getLast? <;> rfl

/-! ## One event -/

theorem arming?_valueChanges {n : Nat} (report : Nat → Bool → Change)
    (hreport : ∀ number on, (report number on).arming? = none) (before now : Vector (Option Bool) n) :
    (valueChanges report before now).filterMap Change.arming? = [] := by
  rw [valueChanges, List.filterMap_filterMap, List.filterMap_eq_nil_iff]
  intro i _
  rw [change?]
  split
  next => rfl
  next => cases now[i] <;> simp [hreport]

/-- An event tells the state and the mode if the state changes, and only then. -/
theorem arming?_handle (event : Event) (a : Alarm) :
    (a.handle event).2.filterMap Change.arming? =
      if a.state = (a.handle event).1.state then [] else [(a.handle event).1.arming] := by
  rw [(update_handle event a).snd_eq, differences, List.filterMap_append, List.filterMap_append,
    arming?_valueChanges _ fun _ _ => rfl, arming?_valueChanges _ fun _ _ => rfl, List.append_nil,
    List.append_nil]
  split <;> rfl

theorem mem_arming_handle_iff {event : Event} {state : ArmingState} {mode : Option ArmingMode} :
    Change.arming state mode ∈ (a.handle event).2 ↔
      a.state ≠ (a.handle event).1.state ∧ (a.handle event).1.arming = (state, mode) := by
  have htold : Change.arming state mode ∈ (a.handle event).2 ↔
      (state, mode) ∈ (a.handle event).2.filterMap Change.arming? := by
    rw [List.mem_filterMap]
    refine ⟨fun h => ⟨_, h, rfl⟩, ?_⟩
    rintro ⟨change, hmem, hchange⟩
    cases change <;> cases hchange
    exact hmem
  rw [htold, arming?_handle]
  split
  next h => simp [h]
  next h => simp [h, eq_comm]

theorem lastTold_handle (known : ArmingState × Option ArmingMode) (event : Event) (a : Alarm) :
    lastTold known (a.handle event).2 =
      if a.state = (a.handle event).1.state then known else (a.handle event).1.arming := by
  rw [lastTold, arming?_handle]
  split <;> rfl

/-- The event changes the mode and leaves the state as it is: the panel, about to be armed, is to be armed in
another mode, or it is disarmed again, and had kept its mode. -/
def UntoldMode (a : Alarm) (event : Event) : Prop :=
  (a.state = .arming ∧ ∃ mode : ArmingMode, event.body.type? = some mode.eventType ∧ a.mode ≠ some mode) ∨
    a.state = .disarmed ∧ event.body.type? = some .disarmed ∧ a.mode ≠ none

theorem untoldMode_iff {event : Event} :
    a.UntoldMode event ↔ a.state = (a.handle event).1.state ∧ (a.handle event).1.mode ≠ a.mode := by
  constructor
  · rintro (⟨harming, mode, htype, hmode⟩ | ⟨hdisarmed, htype, hmode⟩)
    · rw [state_handle, mode_handle, EventBody.mode?, EventBody.sign?_eq_arms_iff.mpr htype]
      exact ⟨harming, hmode.symm⟩
    · rw [state_handle, mode_handle, EventBody.mode?, EventBody.sign?_eq_disarms_iff.mpr htype]
      exact ⟨hdisarmed, hmode.symm⟩
  · rintro ⟨hstate, hmode⟩
    obtain ⟨-, -, hkept⟩ | ⟨sign, hsign, hnext, htold⟩ := handle_cases event a
    · exact absurd hkept hmode
    · rw [hnext] at hstate
      rw [htold] at hmode
      cases sign with
      | arms mode => exact .inl ⟨hstate, mode, EventBody.sign?_eq_arms_iff.mp hsign, hmode.symm⟩
      | disarms => exact .inr ⟨hstate, EventBody.sign?_eq_disarms_iff.mp hsign, hmode.symm⟩
      | _ => exact absurd rfl hmode

/-- A mode that an event changes is told, unless the state stays. -/
theorem exists_mem_arming_iff {event : Event} (hmode : (a.handle event).1.mode ≠ a.mode) :
    (∃ state, Change.arming state (a.handle event).1.mode ∈ (a.handle event).2) ↔ ¬ a.UntoldMode event := by
  simp only [mem_arming_handle_iff, untoldMode_iff, arming, Prod.mk.injEq, and_true]
  exact ⟨fun ⟨_, hstate, _⟩ h => hstate h.1, fun h => ⟨_, fun hstate => h ⟨hstate, hmode⟩, rfl⟩⟩

/-! ## Going by the changes -/

theorem lastTold_handle_fst {known : ArmingState × Option ArmingMode} (event : Event) (h : known.1 = a.state) :
    (lastTold known (a.handle event).2).1 = (a.handle event).1.state := by
  rw [lastTold_handle]
  split
  next hstate => exact h.trans hstate
  next => rfl

/-- Who knows the state and the mode, knows them after an event that changes no mode untold. -/
theorem lastTold_handle_iff (event : Event) (a : Alarm) :
    lastTold a.arming (a.handle event).2 = (a.handle event).1.arming ↔ ¬ a.UntoldMode event := by
  rw [lastTold_handle, untoldMode_iff]
  split
  next hstate => simp [arming, hstate, eq_comm]
  next hstate => simp [hstate]

theorem lastTold_changes_fst (events : List Event) {known : ArmingState × Option ArmingMode}
    (h : known.1 = a.state) : (lastTold known (a.changes events)).1 = (a.after events).state := by
  induction events generalizing a known with
  | nil => exact h
  | cons event events ih =>
    rw [changes, lastTold_append]
    exact ih (lastTold_handle_fst event h)

theorem lastTold_changes (events : List Event)
    (h : ∀ before event, before ++ [event] <+: events → ¬ (a.after before).UntoldMode event) :
    lastTold a.arming (a.changes events) = (a.after events).arming := by
  induction events generalizing a with
  | nil => rfl
  | cons event events ih =>
    have hfirst : ¬ a.UntoldMode event := h [] event (List.cons_prefix_cons.mpr ⟨rfl, List.nil_prefix⟩)
    rw [changes, lastTold_append, (lastTold_handle_iff event a).mpr hfirst]
    exact ih fun before next hprefix => h (event :: before) next (List.cons_prefix_cons.mpr ⟨rfl, hprefix⟩)

/-- What somebody knows of the state and the mode who goes by the changes from the beginning. -/
def observed (infer : Bool) (events : List Event) : ArmingState × Option ArmingMode :=
  lastTold (new infer).arming ((new infer).changes events)

theorem observed_append (infer : Bool) (events : List Event) (event : Event) :
    observed infer (events ++ [event]) =
      lastTold (observed infer events) (((new infer).after events).handle event).2 := by
  rw [observed, changes_append, lastTold_append, changes, changes, List.append_nil]
  rfl

/-- A mode that an event changes is told with the new state, unless the state stays. So who goes by the changes
knows the state in every history, and knows the mode as long as no event changes it untold; the first event
that does leaves him with the former one. -/
theorem mode_told_iff (infer : Bool) (events : List Event) :
    let a := (new infer).after events
    (∀ event, (a.handle event).1.mode ≠ a.mode →
      ((∃ state, Change.arming state (a.handle event).1.mode ∈ (a.handle event).2) ↔ ¬ a.UntoldMode event)) ∧
    (observed infer events).1 = a.state ∧
    ((∀ before event, before ++ [event] <+: events → ¬ ((new infer).after before).UntoldMode event) →
      observed infer events = a.arming) ∧
    ∀ event, observed infer events = a.arming →
      (observed infer (events ++ [event]) = (a.handle event).1.arming ↔ ¬ a.UntoldMode event) := by
  intro a
  refine ⟨fun event => exists_mem_arming_iff, lastTold_changes_fst events rfl, lastTold_changes events,
    fun event hknown => ?_⟩
  rw [observed_append, hknown]
  exact lastTold_handle_iff event a

/-- A panel that is armed, disarmed, and armed in another mode: each mode is told. -/
theorem mode_told_iff_rearmed :
    let armed : Event := ⟨none, none, .system ⟨.armedAway, 0, 0⟩⟩
    let disarmed : Event := ⟨none, none, .system ⟨.disarmed, 0, 0⟩⟩
    let a := (new false).after [armed]
    (a.handle disarmed).1.mode ≠ a.mode ∧
      (∃ state, Change.arming state (a.handle disarmed).1.mode ∈ (a.handle disarmed).2) ∧
      observed false [armed] = a.arming ∧ observed false [armed, disarmed] = (a.handle disarmed).1.arming := by
  intro armed disarmed a
  have hmode : (a.handle disarmed).1.mode ≠ a.mode := by decide
  have htold : ¬ a.UntoldMode disarmed := by
    rw [untoldMode_iff]
    decide
  have hfirst : ∀ before event, before ++ [event] <+: [armed] → ¬ ((new false).after before).UntoldMode event := by
    rintro (_ | ⟨first, before⟩) event hprefix
    · obtain ⟨rfl, -⟩ := List.cons_prefix_cons.mp hprefix
      rw [untoldMode_iff]
      decide
    · simp at hprefix
  obtain ⟨hchanges, -, hknown, hnext⟩ := mode_told_iff false [armed]
  exact ⟨hmode, (hchanges disarmed hmode).mpr htold, hknown hfirst, (hnext disarmed (hknown hfirst)).mpr htold⟩

/-- A panel that is armed away and then, before its exit delay, at home: nothing tells of the new mode. -/
theorem mode_changed_untold :
    let away : Event := ⟨none, none, .system ⟨.armedAway, 0, 0⟩⟩
    let home : Event := ⟨none, none, .system ⟨.armedHome, 0, 0⟩⟩
    let a := (new false).after [away]
    (a.handle home).1.mode ≠ a.mode ∧ (a.handle home).2 = [] ∧
      (¬ ∃ state, Change.arming state (a.handle home).1.mode ∈ (a.handle home).2) ∧
      observed false [away, home] = (.arming, some .away) ∧ (a.handle home).1.arming = (.arming, some .home) := by
  intro away home a
  have hnothing : (a.handle home).2 = [] := by decide
  refine ⟨by decide, hnothing, ?_, by decide, by decide⟩
  rw [hnothing]
  exact fun ⟨_, hmem⟩ => absurd hmem List.not_mem_nil

/-! ## Disarmed in a mode -/

end Alarm

/-- The event leaves a disarmed alarm disarmed, and says nothing of the mode. -/
def Event.LeavesDisarmed (event : Event) : Prop :=
  ∀ sign, event.body.sign? = some sign → sign = .notArmed ∨ sign = .alarmOver ∨ sign = .exitDelayOver

namespace Alarm

variable {a : Alarm}

theorem leaves_of_state {sign : ArmingSign} {infer : Bool} (hstate : sign.state infer .disarmed = .disarmed)
    (hmode : sign.mode? = none) : sign = .notArmed ∨ sign = .alarmOver ∨ sign = .exitDelayOver := by
  cases sign <;> simp_all [ArmingSign.state, ArmingSign.mode?]

theorem arming_handle_leaves {event : Event} {mode : Option ArmingMode} (h : event.LeavesDisarmed)
    (ha : a.arming = (.disarmed, mode)) : (a.handle event).1.arming = (.disarmed, mode) := by
  obtain ⟨hbefore, hmode⟩ := Prod.mk.inj ha
  obtain ⟨-, hstate, hkept⟩ | ⟨sign, hsign, hstate, hkept⟩ := handle_cases event a
  · rw [arming, hstate, hkept]
    exact ha
  · rw [arming, hstate, hkept, hbefore, hmode]
    rcases h sign hsign with rfl | rfl | rfl <;> simp [ArmingSign.state, ArmingSign.mode?]

theorem arming_after_leaves {events : List Event} {mode : Option ArmingMode}
    (h : ∀ event ∈ events, event.LeavesDisarmed) (ha : a.arming = (.disarmed, mode)) :
    (a.after events).arming = (.disarmed, mode) := by
  induction events generalizing a with
  | nil => exact ha
  | cons event events ih =>
    have hnext := arming_handle_leaves (h event List.mem_cons_self) ha
    exact ih (fun e he => h e (List.mem_cons_of_mem _ he)) hnext

/-- An arming status that counts as not armed disarms an alarm that does not infer its state, and leaves the
mode. -/
theorem arming_handle_notArmed {event : Event} (hinfer : a.inferArming = false)
    (hsign : event.body.sign? = some .notArmed) : (a.handle event).1.arming = (.disarmed, a.mode) := by
  rw [arming, state_handle, mode_handle, EventBody.mode?, hsign]
  simp [ArmingSign.state, ArmingSign.mode?, hinfer]

/-- A disarmed alarm that has a mode was disarmed in it before, or has been disarmed by an arming status. -/
theorem disarmed_in_mode_cases {event : Event} {mode : ArmingMode} (ha : Coherent a.inferArming a.state a.mode)
    (h : (a.handle event).1.arming = (.disarmed, some mode)) :
    a.arming = (.disarmed, some mode) ∧ event.LeavesDisarmed ∨
      a.inferArming = false ∧ a.state ≠ .disarmed ∧ a.mode = some mode ∧ event.body.sign? = some .notArmed := by
  obtain ⟨hstate, hmode⟩ := Prod.mk.inj h
  obtain ⟨hsign, hsame, hkept⟩ | ⟨sign, hsign, hnext, hkept⟩ := handle_cases event a
  · refine .inl ⟨Prod.ext (hsame.symm.trans hstate) (hkept.symm.trans hmode), fun sign h => ?_⟩
    rw [hsign] at h
    cases h
  · rw [hnext] at hstate
    rw [hkept] at hmode
    have hleaves (hbefore : a.state = .disarmed) (htold : sign.mode? = none) : event.LeavesDisarmed := by
      intro other hother
      obtain rfl : sign = other := Option.some.inj (hsign.symm.trans hother)
      rw [hbefore] at hstate
      exact leaves_of_state hstate htold
    rcases ArmingSign.eq_disarms_of_state hstate with ⟨hbefore, htold⟩ | rfl | ⟨rfl, hinfer⟩
    · rw [htold] at hmode
      exact .inl ⟨Prod.ext hbefore hmode, hleaves hbefore htold⟩
    · cases hmode
    · have hmode : a.mode = some mode := hmode
      -- An alarm of unknown state has no mode that it could be disarmed in.
      have hinfer : a.inferArming = false := by
        refine hinfer.resolve_right fun hunknown => ?_
        rw [ha.unknown hunknown] at hmode
        cases hmode
      by_cases hbefore : a.state = .disarmed
      · exact .inl ⟨Prod.ext hbefore hmode, hleaves hbefore rfl⟩
      · exact .inr ⟨hinfer, hbefore, hmode, hsign⟩

section Histories

variable {infer : Bool} {events : List Event} {mode : ArmingMode}

theorem disarmed_in_mode_history {event : Event}
    (h : (((new infer).after events).handle event).1.arming = (.disarmed, some mode)) :
    ((new infer).after events).arming = (.disarmed, some mode) ∧ event.LeavesDisarmed ∨
      infer = false ∧ ((new infer).after events).state ≠ .disarmed ∧
        ((new infer).after events).mode = some mode ∧ event.body.sign? = some .notArmed := by
  have hinfer : ((new infer).after events).inferArming = infer := inferArming_after events _
  have hcases := disarmed_in_mode_cases (by rw [hinfer]; exact coherent_history infer events) h
  rwa [hinfer] at hcases

/-- The arming status that has disarmed the alarm is found from the end. -/
theorem exists_status_of_disarmed (h : ((new infer).after events).arming = (.disarmed, some mode)) :
    infer = false ∧ ∃ before status rest, events = before ++ status :: rest ∧
      ((new infer).after before).state ≠ .disarmed ∧ ((new infer).after before).mode = some mode ∧
      status.body.sign? = some .notArmed ∧ ∀ event ∈ rest, event.LeavesDisarmed := by
  -- The last event either leaves an alarm that was disarmed in the mode before, or is the status itself.
  induction events using List.reverseRecOn with
  | nil => cases h
  | append_singleton events event ih =>
    rw [after_append] at h
    rcases disarmed_in_mode_history h with ⟨hbefore, hleaves⟩ | ⟨hinfer, hstate, hmode, hsign⟩
    · obtain ⟨hinfer, before, status, rest, rfl, hstate, hmode, hsign, hrest⟩ := ih hbefore
      refine ⟨hinfer, before, status, rest ++ [event], by simp, hstate, hmode, hsign, fun e he => ?_⟩
      rcases List.mem_append.mp he with hmem | hmem
      · exact hrest e hmem
      · rwa [List.mem_singleton.mp hmem]
    · exact ⟨hinfer, events, event, [], rfl, hstate, hmode, hsign, fun _ h => absurd h List.not_mem_nil⟩

end Histories

/-- An alarm that infers its state is in no mode when it is disarmed. One that does not is still in the mode that
it was in, if an arming status that counts as not armed came when it was not disarmed and no event since then
has told the state or the mode anew; and the change that such a status makes tells the mode. -/
theorem disarmed_in_mode_iff (infer : Bool) (events : List Event) (mode : ArmingMode) :
    let a := (new infer).after events
    (a.arming = (.disarmed, some mode) ↔
      infer = false ∧ ∃ before status rest, events = before ++ status :: rest ∧
        ((new infer).after before).state ≠ .disarmed ∧ ((new infer).after before).mode = some mode ∧
        status.body.sign? = some .notArmed ∧ ∀ event ∈ rest, event.LeavesDisarmed) ∧
    ∀ event, Change.arming .disarmed (some mode) ∈ (a.handle event).2 ↔
      infer = false ∧ a.state ≠ .disarmed ∧ a.mode = some mode ∧ event.body.sign? = some .notArmed := by
  intro a
  have hinfer (es : List Event) : ((new infer).after es).inferArming = infer := inferArming_after es _
  refine ⟨⟨exists_status_of_disarmed, ?_⟩, fun event => ?_⟩
  · rintro ⟨hfalse, before, status, rest, rfl, -, hmode, hsign, hrest⟩
    have hstatus := arming_handle_notArmed ((hinfer before).trans hfalse) hsign
    rw [hmode] at hstatus
    have hafter := arming_after_leaves hrest hstatus
    exact (congrArg arming (after_append before (status :: rest) _)).trans hafter
  · rw [mem_arming_handle_iff]
    constructor
    · rintro ⟨hstate, harming⟩
      -- The change tells of another state, so the alarm was not disarmed before.
      rcases disarmed_in_mode_history harming with ⟨hbefore, -⟩ | hstatus
      · have heq : a.state = (a.handle event).1.state :=
          (congrArg Prod.fst hbefore).trans (congrArg Prod.fst harming).symm
        exact absurd heq hstate
      · exact hstatus
    · rintro ⟨hfalse, hstate, hmode, hsign⟩
      have hstatus := arming_handle_notArmed ((hinfer events).trans hfalse) hsign
      rw [hmode] at hstatus
      refine ⟨?_, hstatus⟩
      rw [(Prod.mk.inj hstatus).1]
      exact hstate

/-- A panel that is armed, does not tell how far, and ends its exit delay. -/
theorem disarmed_in_mode_iff_delayed :
    let armed : Event := ⟨none, none, .system ⟨.armedAway, 0, 0⟩⟩
    let status : Event := ⟨none, none, .status (.arming .empty)⟩
    let ended : Event := ⟨none, none, .system ⟨.exitDelayEnd, 0, 0⟩⟩
    (∀ event ∈ [ended], event.LeavesDisarmed) ∧
      ((new false).after [armed, status, ended]).arming = (.disarmed, some .away) := by
  intro armed status ended
  have hleaves : ∀ event ∈ [ended], event.LeavesDisarmed := by
    intro event hevent sign hsign
    rw [List.mem_singleton.mp hevent] at hsign
    exact .inr (.inr (Option.some.inj hsign).symm)
  refine ⟨hleaves, (disarmed_in_mode_iff false [armed, status, ended] .away).1.mpr ?_⟩
  exact ⟨rfl, [armed], status, [ended], rfl, by decide, by decide, by decide, hleaves⟩

/-- A panel that is armed and then disarmed by an empty arming status, which says nothing of its mode. -/
theorem disarmed_in_mode_by_status :
    let a := (new false).after [⟨none, none, .system ⟨.armedAway, 0, 0⟩⟩]
    let u := a.handle ⟨none, none, .status (.arming .empty)⟩
    u.1.state = .disarmed ∧ u.1.mode = some .away ∧ u.2 = [.arming .disarmed (some .away)] := by
  decide

end Alarm

end AlarmPanel
