import AlarmPanel.Proofs.Panel.Delays
import AlarmPanel.Proofs.Panel.Frames
import AlarmPanel.Proofs.Panel.Image

/-!
# Panel and alarm in step

An alarm that takes in every frame of a panel knows the panel's mode and state, and its zones as far as they
have been told (`InStep`). `Lockstep` is what the operations of a panel preserve, when nothing comes in
between them: a command is carried out and answered as a whole (`SimulatedPanel.performWhole?`). The
delayed transitions need `Schedule.Timely` beside it, as the end of an exit delay tells an alarm that it is
armed only during that delay.

One operation is left out for an alarm that does not infer its state: after an alarm the arming status is
empty, and such an alarm takes it for disarmed.
-/

namespace AlarmPanel

/-! ## In step -/

/-- What an alarm knows of a zone is how the zone is; nothing is known only of a sealed zone that no event
has told. -/
def ZonesInStep (p : SimulatedPanel) (events : List Event) (a : Alarm) : Prop :=
  ∀ number unsealed, p.zone? number = some unsealed →
    a.zone? number = some (some unsealed) ∨
      a.zone? number = some none ∧ unsealed = false ∧
        ∀ event ∈ events, event.body.tells? number = none

/-- What an alarm knows after the events is how the panel is. -/
structure InStep (p : SimulatedPanel) (events : List Event) (a : Alarm) : Prop where
  mode_eq : a.mode = p.mode
  /-- The state of a disarmed panel may be unknown yet. -/
  state_eq : a.state = p.state.image ∨ a.state = .unknown ∧ p.state = .disarmed
  zones : ZonesInStep p events a

section Zones

variable {p q : SimulatedPanel} {events : List Event} {a : Alarm}

theorem ZonesInStep.congr (hzones : q.zones = p.zones) (h : ZonesInStep p events a) :
    ZonesInStep q events a := by
  intro number unsealed hq
  have hp : p.zone? number = some unsealed := by
    rwa [SimulatedPanel.zone?, hzones] at hq
  exact h number unsealed hp

/-- The numbers of the zones that a panel has are numbers of zones that an alarm knows of. -/
theorem zone?_isSome (hle : p.zones.length ≤ zoneCount) {number : Nat} {unsealed : Bool}
    (h : p.zone? number = some unsealed) (a : Alarm) : ∃ known, a.zone? number = some known := by
  unfold SimulatedPanel.zone? at h
  split at h
  next => cases h
  next hnumber =>
    have hlt := (List.getElem?_eq_some_iff.mp h).1
    exact ⟨_, dif_pos (by omega)⟩

/-- Setting a zone changes what the panel says of it and of no other. -/
theorem zone?_set {number : Nat} (hpos : 1 ≤ number) (hle : number ≤ p.zones.length) (unsealed : Bool)
    (n : Nat) :
    ({ p with zones := p.zones.set (number - 1) unsealed } : SimulatedPanel).zone? n =
      if number = n then some unsealed else p.zone? n := by
  simp only [SimulatedPanel.zone?]
  by_cases hn : number = n
  · subst hn
    rw [if_neg (Nat.ne_of_gt hpos), if_pos rfl]
    exact List.getElem?_set_self (by omega)
  · rw [if_neg hn]
    split
    next => rfl
    next hzero => exact List.getElem?_set_ne (by omega)

/-- An event keeps the zones in step if it tells how its zones are and the others are as they were. -/
theorem ZonesInStep.handle (hle : q.zones.length ≤ zoneCount) (h : ZonesInStep p events a) {event : Event}
    (hevent : ∀ number unsealed, q.zone? number = some unsealed →
      event.body.tells? number = some unsealed ∨
        event.body.tells? number = none ∧ p.zone? number = some unsealed) :
    ZonesInStep q (events ++ [event]) (a.handle event).1 := by
  intro number unsealed hq
  rw [Alarm.zone?_handle]
  rcases hevent number unsealed hq with htells | ⟨hsilent, hp⟩
  · obtain ⟨known, hknown⟩ := zone?_isSome hle hq a
    rw [htells, hknown]
    exact .inl rfl
  · rw [hsilent]
    rcases h number unsealed hp with hknown | ⟨hnone, hsealed, hevents⟩
    · exact .inl hknown
    · refine .inr ⟨hnone, hsealed, fun e he => ?_⟩
      rcases List.mem_append.mp he with hold | hnew
      · exact hevents e hold
      · rw [List.mem_singleton.mp hnew]
        exact hsilent

/-- Events that tell no zone of the panel keep the zones in step. -/
theorem ZonesInStep.after (hle : p.zones.length ≤ zoneCount) (h : ZonesInStep p events a)
    {told : List Event} (htold : ∀ event ∈ told, ∀ number ≠ 0, event.body.tells? number = none) :
    ZonesInStep p (events ++ told) (a.after told) := by
  induction told generalizing events a with
  | nil => rwa [List.append_nil]
  | cons event told ih =>
    have hnext : ZonesInStep p (events ++ [event]) (a.handle event).1 := by
      refine h.handle hle fun number unsealed hp => .inr ⟨htold event List.mem_cons_self number ?_, hp⟩
      rintro rfl
      cases hp
    have hrest := ih hnext fun e he => htold e (List.mem_cons_of_mem _ he)
    rwa [List.append_assoc] at hrest

end Zones

/-- The part of a panel that an alarm and the answers to commands depend on. -/
def SimulatedPanel.bearing (p : SimulatedPanel) :
    (Nat → Timestamp) × List Bool × List StatusUpdate × PanelState × Option ArmingMode × List String :=
  (p.clock, p.zones, p.replies, p.state, p.mode, p.frames)

/-- What keeps a panel and the alarm that listens to it in step. -/
structure Lockstep (infer : Bool) (p : SimulatedPanel) : Prop where
  clock : ClockInCentury p.clock
  zones_le : p.zones.length ≤ zoneCount
  /-- No answer is still to be sent. -/
  replies_eq : p.replies = []
  inStep : ∃ events, p.Sent events ∧ InStep p events ((Alarm.new infer).after events)

namespace Lockstep

variable {infer : Bool} {p q : SimulatedPanel}

/-- What else a panel keeps makes no difference. -/
theorem congr (h : Lockstep infer p) (hq : q.bearing = p.bearing) : Lockstep infer q := by
  simp only [SimulatedPanel.bearing, Prod.mk.injEq] at hq
  obtain ⟨hclock, hzones, hreplies, hstate, hmode, hframes⟩ := hq
  obtain ⟨events, hsent, hin⟩ := h.inStep
  refine ⟨hclock ▸ h.clock, hzones ▸ h.zones_le, hreplies.trans h.replies_eq, events, ?_,
    hin.mode_eq.trans hmode.symm, ?_, hin.zones.congr hzones⟩
  · rwa [SimulatedPanel.Sent, hframes]
  · rw [hstate]
    exact hin.state_eq

/-- A move keeps them in step if the mode of the panel is the one that the move reports. -/
theorem moveTo (next : PanelState) {events : List Event} (hclock : ClockInCentury p.clock)
    (hle : p.zones.length ≤ zoneCount) (hreplies : p.replies = []) (hsent : p.Sent events)
    (hzones : ZonesInStep p events ((Alarm.new infer).after events))
    (harmed : next = .armed → ((Alarm.new infer).after events).state = .exitDelay)
    (hmode : Alarm.movedMode next p.mode ((Alarm.new infer).after events).mode = p.mode) :
    Lockstep infer (p.moveTo next) := by
  obtain ⟨told, hbody, hsends⟩ := SimulatedPanel.exists_sent_moveTo hclock next
  have htold := hsends hsent
  have hafter : (Alarm.new infer).after (events ++ told) =
      { (Alarm.new infer).after events with state := next.image, mode := p.mode } := by
    have hsame : told.map Event.body =
        ((transitionEvents p.state next p.mode).map Alarm.panelEvent).map Event.body := by
      rw [hbody, List.map_map]
      rfl
    rw [Alarm.after_append, Alarm.after_congr hsame, Alarm.after_transitionEvents _ _ _ _ harmed, hmode]
  have hsilent : ∀ event ∈ told, ∀ number ≠ 0, event.body.tells? number = none := by
    intro event hevent number hnumber
    have hmem : event.body ∈ told.map Event.body := List.mem_map_of_mem hevent
    rw [hbody] at hmem
    obtain ⟨type, -, htype⟩ := List.mem_map.mp hmem
    rw [← htype]
    simp [EventBody.tells?, hnumber.symm]
  have hafterZones := hzones.after hle hsilent
  rw [← Alarm.after_append] at hafterZones
  rw [SimulatedPanel.moveTo_eq] at htold ⊢
  refine ⟨hclock, hle, hreplies, events ++ told, htold, ?_, ?_, hafterZones.congr rfl⟩
  · rw [hafter]
  · rw [hafter]
    exact .inl rfl

/-! ## Operations -/

theorem arm (h : Lockstep infer p) (mode : ArmingMode) : Lockstep infer (p.arm mode) := by
  obtain ⟨events, hsent, hin⟩ := h.inStep
  have hmove := moveTo (p := { p with mode := some mode }) .exitDelay h.clock h.zones_le
    h.replies_eq hsent (hin.zones.congr rfl) (by simp) rfl
  exact hmove.congr rfl

theorem disarm (h : Lockstep infer p) : Lockstep infer p.disarm := by
  obtain ⟨events, hsent, hin⟩ := h.inStep
  exact moveTo (p := { p with generation := p.generation + 1, mode := none }) .disarmed
    h.clock h.zones_le h.replies_eq hsent (hin.zones.congr rfl) (by simp) rfl

theorem trip (h : Lockstep infer p) : Lockstep infer p.trip := by
  obtain ⟨events, hsent, hin⟩ := h.inStep
  have hmove := moveTo .entryDelay h.clock h.zones_le h.replies_eq hsent hin.zones (by simp)
    hin.mode_eq
  exact hmove.congr rfl

/-- A delayed transition that moves the panel ends the delay that the alarm knows of. -/
theorem expire {latest : Option (Nat × Movement)} (h : Lockstep infer p)
    (htimely : p.schedule.Timely latest) (index : Nat) : Lockstep infer (p.expire index) := by
  obtain ⟨events, hsent, hin⟩ := h.inStep
  unfold SimulatedPanel.expire
  split
  next => exact h
  next t ht =>
    dsimp only
    split
    next hgen =>
      obtain ⟨-, ⟨hstate, -, hnext, -⟩ | ⟨hstate, hnext, -⟩⟩ := htimely.ending ht hgen
      · -- The alarm heeds the end of an exit delay only if it knows of the delay.
        have hexit : ((Alarm.new infer).after events).state = .exitDelay := by
          have hstate : p.state = .exitDelay := hstate
          rcases hin.state_eq with himage | ⟨-, hdisarmed⟩
          · rw [himage, hstate]
            rfl
          · rw [hstate] at hdisarmed
            cases hdisarmed
        rw [hnext]
        exact moveTo (p := { p with delayed := p.delayed.eraseIdx index }) _ h.clock h.zones_le
          h.replies_eq hsent (hin.zones.congr rfl) (fun _ => hexit) hin.mode_eq
      · rw [hnext]
        exact moveTo (p := { p with delayed := p.delayed.eraseIdx index }) _ h.clock h.zones_le
          h.replies_eq hsent (hin.zones.congr rfl) (by simp) hin.mode_eq
    next => exact h.congr rfl

/-- How an event leaves the state and the mode of an alarm that is in step with the panel. -/
def KeepsStance (infer : Bool) (p : SimulatedPanel) (event : Event) : Prop :=
  ∀ a : Alarm, a.inferArming = infer →
    (a.state = p.state.image ∨ a.state = .unknown ∧ p.state = .disarmed) →
      (a.handle event).1.mode = a.mode ∧
        ((a.handle event).1.state = p.state.image ∨
          (a.handle event).1.state = .unknown ∧ p.state = .disarmed)

theorem keepsStance_of_stance (event : Event) (h : ∀ a : Alarm, (a.handle event).1.stance = a.stance)
    (infer : Bool) (p : SimulatedPanel) : KeepsStance infer p event := by
  intro a _ hstate
  have hstance := h a
  simp only [Alarm.stance, Prod.mk.injEq] at hstance
  rw [hstance.2.1, hstance.2.2]
  exact ⟨rfl, hstate⟩

/-- Sending the frame of one event keeps them in step, if the event tells what becomes of the zones. -/
theorem tell {zones : List Bool} {frames : List String} (event : Event) (h : Lockstep infer p)
    (hlength : zones.length = p.zones.length)
    (hsent : ∀ events, p.Sent events →
      ({ p with zones, frames } : SimulatedPanel).Sent (events ++ [event]))
    (hstance : KeepsStance infer p event)
    (hzones : ∀ number unsealed, ({ p with zones, frames } : SimulatedPanel).zone? number = some unsealed →
      event.body.tells? number = some unsealed ∨
        event.body.tells? number = none ∧ p.zone? number = some unsealed) :
    Lockstep infer { p with zones, frames } := by
  obtain ⟨events, hevents, hin⟩ := h.inStep
  have hle : zones.length ≤ zoneCount := hlength ▸ h.zones_le
  obtain ⟨hmode, hstate⟩ := hstance _ (Alarm.inferArming_after events _) hin.state_eq
  have hafter : (Alarm.new infer).after (events ++ [event]) =
      (((Alarm.new infer).after events).handle event).1 := Alarm.after_append events [event] _
  refine ⟨h.clock, hle, h.replies_eq, events ++ [event], hsent events hevents, ?_⟩
  rw [hafter]
  exact ⟨hmode.trans hin.mode_eq, hstate, hin.zones.handle hle hzones⟩

/-- A turned zone is told by the event that reports it. -/
theorem turnZone (h : Lockstep infer p) {number : UInt8} (unsealed : Bool)
    (hnumber : 1 ≤ number.toNat ∧ number.toNat ≤ p.zones.length) :
    Lockstep infer (p.turnZone number unsealed) := by
  let turned : SimulatedPanel := { p with zones := p.zones.set (number.toNat - 1) unsealed }
  let event := turned.reported (if unsealed then .unsealed else .sealed) number
  have hsmall : number ≤ 99 := by
    have hle := h.zones_le
    rw [UInt8.le_iff_toNat_le]
    change number.toNat ≤ 99
    unfold zoneCount at hle
    omega
  have hstance (a : Alarm) : (a.handle event).1.stance = a.stance := by
    cases unsealed <;> exact Alarm.stance_setZone ..
  have htells (n : Nat) : event.body.tells? n = if number.toNat = n then some unsealed else none := by
    cases unsealed <;> simp [event, SimulatedPanel.reported, EventBody.tells?]
  rw [SimulatedPanel.turnZone_eq]
  refine h.tell event List.length_set (fun events hevents => ?_)
    (keepsStance_of_stance event hstance infer p) fun n u hu => ?_
  · exact SimulatedPanel.sent_report (p := turned) h.clock hevents _ _ hsmall
  · have hturned : turned.zone? n = some u := hu
    rw [zone?_set hnumber.1 hnumber.2] at hturned
    rw [htells]
    by_cases hn : number.toNat = n
    · rw [if_pos hn] at hturned
      rw [if_pos hn]
      exact .inl hturned
    · rw [if_neg hn] at hturned
      rw [if_neg hn]
      exact .inr ⟨rfl, hturned⟩

theorem setZone (h : Lockstep infer p) {number : UInt8} {unsealed : Bool}
    (hq : p.setZone number unsealed = .ok q) : Lockstep infer q := by
  obtain ⟨hnumber, rfl⟩ := SimulatedPanel.setZone_eq_ok_iff.mp hq
  split
  next => exact (h.turnZone unsealed hnumber).trip
  next => exact h.turnZone unsealed hnumber

theorem setAuxOutput (h : Lockstep infer p) {number : UInt8} {on : Bool}
    (hq : p.setAuxOutput number on = .ok q) : Lockstep infer q := by
  unfold SimulatedPanel.setAuxOutput at hq
  split at hq
  next =>
    cases hq
    exact h.congr rfl
  next => cases hq

theorem startActivity (h : Lockstep infer p) : Lockstep infer p.startActivity := by
  unfold SimulatedPanel.startActivity
  split
  next => exact h
  next => exact h.congr rfl

theorem wake (h : Lockstep infer p) (index drawnZone restMillis : Nat) :
    Lockstep infer (p.wake index drawnZone restMillis) := by
  unfold SimulatedPanel.wake
  split
  next => exact h
  next activity hactivity =>
    have hawake : Lockstep infer { p with activities := p.activities.eraseIdx index } :=
      h.congr rfl
    dsimp only
    split
    next =>
      split
      next q hq => exact (hawake.setZone hq).congr rfl
      next => exact hawake
    next => exact hawake

/-! ## Answers -/

theorem answer {update : StatusUpdate} (h : Lockstep infer p)
    (hstance : KeepsStance infer p (SimulatedPanel.answered update))
    (hzones : ∀ number unsealed, p.zone? number = some unsealed →
      EventBody.tells? number (.status update.carried) = some unsealed ∨
        EventBody.tells? number (.status update.carried) = none) : Lockstep infer (p.answer update) := by
  rw [SimulatedPanel.answer, SimulatedPanel.send_eq]
  refine h.tell (SimulatedPanel.answered update) rfl
    (fun events hevents => SimulatedPanel.sent_answer hevents update) hstance fun number unsealed hq => ?_
  have hp : p.zone? number = some unsealed := hq
  exact (hzones number unsealed hp).imp_right fun hnone => ⟨hnone, hp⟩

/-- The word of a bank has the zones of the bank that are unsealed. -/
theorem has_zoneWord (bank : ZoneBank) (z : BankZone) (p : SimulatedPanel) :
    (p.zoneWord bank).has z = p.zones.getD (z.number + bank.firstZone - 2) false := by
  rw [Bool.eq_iff_iff, SimulatedPanel.zoneWord, FlagSet.has_ofList_iff, List.mem_filter]
  exact and_iff_right (BankZone.mem_all z)

/-- The word of a bank tells the zones of the bank as they are. -/
theorem tells?_zoneWord (bank : ZoneBank) {number : Nat} {unsealed : Bool}
    (hzone : p.zone? number = some unsealed) :
    EventBody.tells? number (.status (StatusUpdate.zone bank .inputUnsealed (p.zoneWord bank)).carried) =
      (bank.zoneAt? number).map fun _ => unsealed := by
  have hcarried : FlagSet.declared (p.zoneWord bank).bits = p.zoneWord bank :=
    FlagSet.declared_ofList fun z _ => BankZone.mem_all z
  simp only [StatusUpdate.carried, hcarried, EventBody.tells?]
  cases hat : bank.zoneAt? number with
  | none => rfl
  | some z =>
    have hnumber := ZoneBank.zoneAt?_eq_some_iff.mp hat
    unfold SimulatedPanel.zone? at hzone
    split at hzone
    next => cases hzone
    next =>
      have hplace : z.number + bank.firstZone - 2 = number - 1 := by omega
      rw [Option.map_some, Option.map_some, has_zoneWord, hplace, List.getD_eq_getElem?_getD, hzone]
      rfl

theorem askZones (h : Lockstep infer p) (bank : ZoneBank) :
    Lockstep infer (p.answer (.zone bank .inputUnsealed (p.zoneWord bank))) := by
  let event := SimulatedPanel.answered (.zone bank .inputUnsealed (p.zoneWord bank))
  have hstance (a : Alarm) : (a.handle event).1.stance = a.stance :=
    Alarm.stance_handleZones bank (.declared (p.zoneWord bank).bits) a
  refine h.answer (keepsStance_of_stance event hstance infer p) fun number unsealed hzone => ?_
  rw [tells?_zoneWord bank hzone]
  cases bank.zoneAt? number with
  | none => exact .inr rfl
  | some z => exact .inl rfl

theorem handle_answered_arming (state : PanelState) (a : Alarm) :
    (a.handle (SimulatedPanel.answered (.arming (armingStatus state)))).1 =
      (a.handleArming (armingStatus state)).1 :=
  congrArg (fun status => (a.handleArming status).1) (Alarm.declared_armingStatus state)

/-- The arming status tells the state, and where it is empty the state stays if it is inferred. -/
theorem askArming (h : Lockstep infer p)
    (hask : infer = true ∨ p.state ≠ .entryDelay ∧ p.state ≠ .tripped) :
    Lockstep infer (p.answer (.arming (armingStatus p.state))) := by
  refine h.answer (fun a hinfer hstate => ?_) fun number unsealed hzone => .inr rfl
  rw [handle_answered_arming, Alarm.handleArming_armingStatus]
  refine ⟨rfl, ?_⟩
  -- Where the status is empty the state is inferred to be what it was, or the panel is disarmed.
  have himage (hnot : p.state ≠ .disarmed) : a.state = p.state.image :=
    hstate.resolve_right fun hunknown => hnot hunknown.2
  cases hp : p.state with
  | exitDelay => exact .inl rfl
  | armed => exact .inl rfl
  | disarmed =>
    left
    rcases hstate with hdisarmed | ⟨hunknown, -⟩
    · rw [hp] at hdisarmed
      simp [hdisarmed, PanelState.image]
    · simp [hunknown, PanelState.image]
  | entryDelay =>
    have hinferred : a.inferArming = true := hinfer.trans (hask.resolve_right fun hnot => hnot.1 hp)
    rw [hp] at himage
    simp [hinferred, himage, PanelState.image]
  | tripped =>
    have hinferred : a.inferArming = true := hinfer.trans (hask.resolve_right fun hnot => hnot.2 hp)
    rw [hp] at himage
    simp [hinferred, himage, PanelState.image]

theorem askVersion (h : Lockstep infer p) : Lockstep infer (p.answer p.version) := by
  have hstance (a : Alarm) : (a.handle (SimulatedPanel.answered p.version)).1.stance = a.stance := by
    simp only [Alarm.handle, SimulatedPanel.answered, SimulatedPanel.version, StatusUpdate.carried,
      Alarm.handleStatus]
    split <;> rfl
  exact h.answer (keepsStance_of_stance _ hstance infer p) fun number unsealed hzone => .inr rfl

theorem askAuxOutputs (h : Lockstep infer p) : Lockstep infer (p.answer (.auxOutputs p.auxOutputs)) := by
  let event := SimulatedPanel.answered (.auxOutputs p.auxOutputs)
  have hstance (a : Alarm) : (a.handle event).1.stance = a.stance :=
    Alarm.stance_handleAuxOutputs (.declared p.auxOutputs.bits) a
  refine h.answer (keepsStance_of_stance event hstance infer p) fun number unsealed hzone => .inr ?_
  simp only [StatusUpdate.carried, EventBody.tells?]

/-- A command that is carried out and answered keeps them in step. -/
theorem handleCommand (h : Lockstep infer p) (text : String)
    (hask : infer = true ∨ (text = "S14" → p.state ≠ .entryDelay ∧ p.state ≠ .tripped)) :
    Lockstep infer (p.handleCommand text) := by
  have hreply (update : StatusUpdate) (hanswer : Lockstep infer (p.answer update)) :
      Lockstep infer ({ p with replies := p.replies ++ [update] } : SimulatedPanel).sendReplies := by
    rwa [SimulatedPanel.sendReplies_of_reply h.replies_eq]
  have hsilent {q : SimulatedPanel} (hq : Lockstep infer q) : Lockstep infer q.sendReplies := by
    rwa [SimulatedPanel.sendReplies_of_nil hq.replies_eq]
  unfold SimulatedPanel.handleCommand SimulatedPanel.accept
  split
  next command hcommand =>
    cases command with
    | arm mode => exact hsilent (h.arm mode)
    | disarm => exact hsilent h.disarm
    | setAuxOutput number on =>
      simp only [SimulatedPanel.obey]
      split
      next q hq => exact hsilent (h.setAuxOutput hq)
      next => exact hsilent h
    | askZones bank => exact hreply _ (h.askZones bank)
    | askArming =>
      have htext := UserCommand.parse?_eq_askArming_iff.mp hcommand
      exact hreply _ (h.askArming (hask.imp_right fun hstate => hstate htext))
    | askVersion => exact hreply _ h.askVersion
    | askAuxOutputs => exact hreply _ h.askAuxOutputs
  next => exact hsilent h

theorem zones_length_new (settings : PanelSettings) (clock : Nat → Timestamp) :
    (SimulatedPanel.new settings clock).zones.length ≤ zoneCount := by
  simp only [SimulatedPanel.new, List.length_replicate]
  exact Nat.min_le_right ..

theorem new (infer : Bool) (settings : PanelSettings) {clock : Nat → Timestamp}
    (hclock : ClockInCentury clock) : Lockstep infer (SimulatedPanel.new settings clock) := by
  have hle := zones_length_new settings clock
  refine ⟨hclock, hle, rfl, [], rfl, rfl, .inr ⟨rfl, rfl⟩, fun number unsealed hzone => .inr ?_⟩
  have hnone : (Alarm.new infer).zone? number = some none := by
    obtain ⟨known, hknown⟩ := zone?_isSome hle hzone (Alarm.new infer)
    unfold Alarm.zone? at hknown ⊢
    split at hknown
    next hnumber => simp [Alarm.new, hnumber]
    next => cases hknown
  have hsealed : unsealed = false := by
    unfold SimulatedPanel.zone? at hzone
    split at hzone
    next => cases hzone
    next => exact List.eq_of_mem_replicate (List.mem_of_getElem? hzone)
  exact ⟨hnone, hsealed, fun _ hevent => absurd hevent List.not_mem_nil⟩

end Lockstep

/-! ## Whole operations -/

namespace SimulatedPanel

/-- The panel after an action that nothing interrupts: a command is answered at once. An operation that is
refused changes nothing and does not stand in a history. -/
def performWhole? (action : PanelAction) (p : SimulatedPanel) : Option SimulatedPanel :=
  match action with
  | .accept text => some (p.handleCommand text)
  | action => p.perform? action

/-- The panel after a history of whole operations. -/
def performAllWhole? (actions : List PanelAction) (p : SimulatedPanel) : Option SimulatedPanel :=
  actions.foldlM (fun q action => q.performWhole? action) p

variable {p q : SimulatedPanel} {action : PanelAction} {actions : List PanelAction} {infer : Bool}
  {settings : PanelSettings} {clock : Nat → Timestamp}

theorem schedule_sendReplies (p : SimulatedPanel) : p.sendReplies.schedule = p.schedule := by
  rw [sendReplies_eq]
  rfl

/-- A whole operation is a step of the schedule. -/
theorem step_of_performWhole? (h : p.performWhole? action = some q) :
    Schedule.Step p.schedule (p.movement? action) q.schedule := by
  unfold performWhole? at h
  split at h
  next text =>
    cases h
    rw [handleCommand, schedule_sendReplies]
    exact step_of_accept text p
  next => exact step_of_perform? h

/-- A whole operation keeps a panel and its listener in step, unless it asks how far a panel is armed that
counts as disarmed. -/
theorem lockstep_of_performWhole? {latest : Option (Nat × Movement)} (hp : Lockstep infer p)
    (htimely : p.schedule.Timely latest) (h : p.performWhole? action = some q)
    (hask : infer = true ∨ (action = .accept "S14" → p.state ≠ .entryDelay ∧ p.state ≠ .tripped)) :
    Lockstep infer q := by
  cases action with
  | arm mode =>
    cases h
    exact hp.arm mode
  | disarm =>
    cases h
    exact hp.disarm
  | trip =>
    cases h
    exact hp.trip
  | setZone number unsealed => exact hp.setZone (toOption_eq_some_iff.mp h)
  | setAuxOutput number on => exact hp.setAuxOutput (toOption_eq_some_iff.mp h)
  | accept text =>
    cases h
    exact hp.handleCommand text (hask.imp_right fun hstate htext => hstate (by rw [htext]))
  | sendReply index =>
    -- Nothing is left to be sent, so this cannot happen.
    obtain ⟨hindex, -⟩ := Option.ite_none_right_eq_some.mp h
    rw [hp.replies_eq] at hindex
    exact absurd hindex (Nat.not_lt_zero _)
  | startActivity =>
    cases h
    exact hp.startActivity
  | stopActivity =>
    cases h
    exact hp.congr rfl
  | expire index =>
    rw [expire_of_perform? h]
    exact hp.expire htimely index
  | wake index drawnZone restMillis =>
    rw [wake_of_perform? h]
    exact hp.wake index drawnZone restMillis
  | pass millis =>
    obtain ⟨-, hq⟩ := Option.ite_none_right_eq_some.mp h
    cases hq
    exact hp.congr rfl

theorem lockstep_of_performAllWhole? {latest : Option (Nat × Movement)} (hp : Lockstep infer p)
    (htimely : p.schedule.Timely latest) (h : p.performAllWhole? actions = some q)
    (hask : infer = true ∨ ∀ before after r, actions = before ++ .accept "S14" :: after →
      p.performAllWhole? before = some r → r.state ≠ .entryDelay ∧ r.state ≠ .tripped) :
    Lockstep infer q := by
  induction actions generalizing p latest with
  | nil =>
    cases h
    exact hp
  | cons action actions ih =>
    obtain ⟨r, hr : p.performWhole? action = some r, hq⟩ := Option.bind_eq_some_iff.mp h
    have hnow : infer = true ∨ (action = .accept "S14" → p.state ≠ .entryDelay ∧ p.state ≠ .tripped) :=
      hask.imp_right fun hstate haction => hstate [] actions p (by rw [haction]; rfl) rfl
    refine ih (lockstep_of_performWhole? hp htimely hr hnow) (htimely.step (step_of_performWhole? hr)) hq
      (hask.imp_right fun hstate before after s hactions hs => ?_)
    refine hstate (action :: before) after s (congrArg _ hactions) ?_
    exact Option.bind_eq_some_iff.mpr ⟨r, hr, hs⟩

/-- Every frame that a panel sends is read back, and after every history of whole operations an alarm that
takes in the events knows how the panel is. An alarm that does not infer its state may not hear the answer
to how far the panel is armed while the panel is in the entry delay or in alarm. -/
theorem alarm_inStep (hclock : ClockInCentury clock)
    (h : (new settings clock).performAllWhole? actions = some p)
    (hask : infer = true ∨ ∀ before after q, actions = before ++ .accept "S14" :: after →
      (new settings clock).performAllWhole? before = some q → q.state ≠ .entryDelay ∧ q.state ≠ .tripped) :
    ∃ events, p.frames.mapM Event.ofLine = .ok events ∧
      InStep p events ((Alarm.new infer).after events) :=
  (lockstep_of_performAllWhole? (.new infer settings hclock) (timely_new settings clock) h hask).inStep

/-- A panel that is armed, asked in its exit delay how far it is armed, and tripped by a zone. -/
theorem alarm_inStep_tripped :
    let p₀ := new .default fun _ => ⟨⟨2024, 1, 1, by decide⟩, 0, 0, 0, by decide⟩
    ∃ p events, p₀.performAllWhole?
        [.accept "AE", .accept "S14", .pass 10000, .expire 0, .setZone 3 true] = some p ∧
      p.state = .entryDelay ∧ p.frames.mapM Event.ofLine = .ok events ∧
        InStep p events ((Alarm.new false).after events) := by
  intro p₀
  have hrun : (p₀.performAllWhole?
      [.accept "AE", .accept "S14", .pass 10000, .expire 0, .setZone 3 true]).any
        (·.state = .entryDelay) := by decide +kernel
  have harming : (p₀.performAllWhole? [.accept "AE"]).all
      fun q => q.state ≠ .entryDelay ∧ q.state ≠ .tripped := by decide +kernel
  have hask : ∀ before after q, [PanelAction.accept "AE", .accept "S14", .pass 10000, .expire 0,
      .setZone 3 true] = before ++ .accept "S14" :: after → p₀.performAllWhole? before = some q →
        q.state ≠ .entryDelay ∧ q.state ≠ .tripped := by
    intro before after q hsplit hq
    -- The panel is asked once, right after it has been armed.
    have hbefore : before = [.accept "AE"] := by
      rcases before with _ | ⟨first, _ | ⟨second, rest⟩⟩
      · simp at hsplit
      · simp only [List.cons_append, List.nil_append, List.cons.injEq] at hsplit
        rw [hsplit.1]
      · simp only [List.cons_append, List.cons.injEq] at hsplit
        have hmem : PanelAction.accept "S14" ∈ rest ++ .accept "S14" :: after := by simp
        rw [← hsplit.2.2] at hmem
        simp at hmem
    rw [hbefore] at hq
    rw [hq] at harming
    exact of_decide_eq_true harming
  obtain ⟨p, hp, hstate⟩ := (Option.any_eq_true _ _).mp hrun
  obtain ⟨events, hevents, hin⟩ := alarm_inStep (fun _ => by decide) hp (.inr hask)
  exact ⟨p, events, hp, of_decide_eq_true hstate, hevents, hin⟩

/-- The condition on asking cannot be dropped: in the entry delay and in alarm the answer makes an alarm that
does not infer its state take the panel for disarmed. -/
theorem disarmed_of_askArming (hp : Lockstep false p) (hstate : p.state = .entryDelay ∨ p.state = .tripped) :
    ∃ events, (p.handleCommand "S14").frames.mapM Event.ofLine = .ok events ∧
      ((Alarm.new false).after events).state = .disarmed ∧ (p.handleCommand "S14").state = p.state := by
  obtain ⟨events, hsent, -⟩ := hp.inStep
  have hcommand : p.handleCommand "S14" = p.answer (.arming (armingStatus p.state)) := by
    rw [handleCommand, accept, UserCommand.parse?_eq_askArming_iff.mpr rfl]
    exact sendReplies_of_reply hp.replies_eq _
  have hinfer : ((Alarm.new false).after events).inferArming = false := Alarm.inferArming_after events _
  rw [hcommand]
  refine ⟨_, sent_answer hsent _, ?_, ?_⟩
  · have hafter := Lockstep.handle_answered_arming p.state ((Alarm.new false).after events)
    rw [Alarm.handleArming_armingStatus] at hafter
    rw [Alarm.after_append]
    refine (congrArg Alarm.state hafter).trans ?_
    rcases hstate with hstate | hstate <;> simp [hstate, hinfer]
  · rw [answer, send_eq]

end SimulatedPanel

end AlarmPanel
