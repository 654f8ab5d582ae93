import AlarmPanel.Proofs.Alarm.Arming
import AlarmPanel.Proofs.Alarm.Changes

/-!
# The parts of an alarm

Every part of an alarm has events of its own (`EventBody.concerns`). A zone, the outputs and the mode are as
the last of their events told them, the panel is as the first one told it, and the state runs through the
signs of the events. No other event bears on a part, so how the events of different parts are interleaved
makes no difference (`Alarm.parts_independent`).
-/

namespace AlarmPanel

namespace EventBody

/-- The outputs that an event tells. -/
def auxOutputs? : EventBody → Option (FlagSet AuxOutput)
  | .status (.auxOutputs flags) => some flags
  | _ => none

/-- The panel that an event tells. -/
def panel? : EventBody → Option PanelInfo
  | .status (.panelVersion model major minor) => some ⟨model, showVersion major minor⟩
  | _ => none

end EventBody

/-- A part of an alarm for which there are events. -/
inductive AlarmPart
  | zone (i : Fin zoneCount)
  | auxOutputs
  | panel
  | mode
  | state

/-- Whether an event is one of those for a part. -/
def EventBody.concerns (body : EventBody) : AlarmPart → Bool
  | .zone i => (body.tells? (i + 1)).isSome
  | .auxOutputs => body.auxOutputs?.isSome
  | .panel => body.panel?.isSome
  | .mode => body.mode?.isSome
  | .state => body.sign?.isSome

namespace Alarm

variable {a b : Alarm}

/-! ## What one event does to a part -/

theorem setZone_fst (number : Nat) (triggered : Bool) (a : Alarm) :
    (a.setZone number triggered).1 = { a with zones := (a.setZone number triggered).1.zones } := by
  unfold setZone
  split
  next => split <;> rfl
  next => rfl

/-- The outputs and the panel. -/
def equipment (a : Alarm) : Vector (Option Bool) auxOutputCount × Option PanelInfo := (a.auxOutputs, a.panel)

theorem equipment_setZone (number : Nat) (triggered : Bool) (a : Alarm) :
    (a.setZone number triggered).1.equipment = a.equipment := by
  rw [setZone_fst]
  rfl

theorem equipment_handleSystem (event : SystemEvent) (a : Alarm) :
    (a.handleSystem event).1.equipment = a.equipment := by
  by_cases hunsealed : event.type = .unsealed
  · rw [handleSystem_unsealed hunsealed, equipment_setZone]
  · by_cases hsealed : event.type = .sealed
    · rw [handleSystem_sealed hsealed, equipment_setZone]
    · rw [handleSystem_fst hunsealed hsealed]
      rfl

theorem equipment_handleArming (status : FlagSet ArmingFlag) (a : Alarm) :
    (a.handleArming status).1.equipment = a.equipment := by
  rw [handleArming_fst]
  rfl

theorem equipment_handleZones (bank : ZoneBank) (word : FlagSet BankZone) (a : Alarm) :
    (a.handleZones bank word).1.equipment = a.equipment :=
  forEach_preserves equipment _ (fun _ _ => equipment_setZone ..) a

theorem panel_handleAuxOutputs (flags : FlagSet AuxOutput) (a : Alarm) :
    (a.handleAuxOutputs flags).1.panel = a.panel := by
  refine forEach_preserves Alarm.panel _ (fun output b => ?_) a
  rw [setAuxOutput_fst]

/-- Only the reports of the outputs and of the panel bear on them. -/
theorem equipment_handle (event : Event) (a : Alarm) :
    (event.body.auxOutputs? = none → (a.handle event).1.auxOutputs = a.auxOutputs) ∧
      (event.body.panel? = none → (a.handle event).1.panel = a.panel) := by
  obtain ⟨address, timestamp, body⟩ := event
  have hboth (h : (a.handle ⟨address, timestamp, body⟩).1.equipment = a.equipment) :
      (body.auxOutputs? = none → (a.handle ⟨address, timestamp, body⟩).1.auxOutputs = a.auxOutputs) ∧
        (body.panel? = none → (a.handle ⟨address, timestamp, body⟩).1.panel = a.panel) :=
    ⟨fun _ => congrArg Prod.fst h, fun _ => congrArg Prod.snd h⟩
  rcases body with e | ⟨bank, condition, word⟩ | status | _ | _ | _ | ⟨model, major, minor⟩ | flags
  case system => exact hboth (equipment_handleSystem e a)
  case status.arming => exact hboth (equipment_handleArming status a)
  case status.zone =>
    cases condition
    case inputUnsealed => exact hboth (equipment_handleZones bank word a)
    all_goals exact hboth rfl
  case status.panelVersion =>
    have hversion := handleStatus_panelVersion model major minor a
    exact ⟨fun _ => (congrArg auxOutputs hversion).trans rfl, (by cases ·)⟩
  case status.auxOutputs => exact ⟨(by cases ·), fun _ => panel_handleAuxOutputs flags a⟩
  all_goals exact hboth rfl

theorem zones_handle (i : Fin zoneCount) (event : Event) (a : Alarm) :
    (a.handle event).1.zones.get i = ((event.body.tells? (i + 1)).map some).getD (a.zones.get i) := by
  have hzone (b : Alarm) : b.zone? (i + 1) = some (b.zones.get i) := dif_pos ⟨Nat.succ_pos _, i.isLt⟩
  have h := zone?_handle (i + 1) event a
  rw [hzone, hzone] at h
  cases htells : event.body.tells? (i + 1) <;> rw [htells] at h <;> exact Option.some.inj h

theorem auxOutputs_handle (output : AuxOutput) (event : Event) (a : Alarm) :
    (a.handle event).1.auxOutputs.get output.place =
      (event.body.auxOutputs?.map fun flags => some (flags.has output)).getD
        (a.auxOutputs.get output.place) := by
  cases houtputs : event.body.auxOutputs? with
  | none =>
    rw [(equipment_handle event a).1 houtputs]
    rfl
  | some flags =>
    obtain ⟨address, timestamp, body⟩ := event
    obtain rfl : body = .status (.auxOutputs flags) := by
      unfold EventBody.auxOutputs? at houtputs
      split at houtputs <;> simp_all
    -- The report lists every output once, so each is as its own entry records it.
    exact (records_auxOutputs flags).getElem_of_mem a pairwise_auxOutputs
      (List.mem_map.mpr ⟨output.place, List.mem_finRange _, rfl⟩)

theorem panel_handle (event : Event) (a : Alarm) :
    (a.handle event).1.panel = a.panel.or event.body.panel? := by
  cases hpanel : event.body.panel? with
  | none => rw [(equipment_handle event a).2 hpanel, Option.or_none]
  | some info =>
    obtain ⟨address, timestamp, body⟩ := event
    obtain ⟨model, major, minor, rfl, rfl⟩ : ∃ model major minor,
        body = .status (.panelVersion model major minor) ∧ info = ⟨model, showVersion major minor⟩ := by
      unfold EventBody.panel? at hpanel
      split at hpanel <;> simp_all
    exact congrArg Alarm.panel (handleStatus_panelVersion model major minor a)

/-! ## What all events do to a part -/

/-- What every event that tells of it sets, is in the end as it was told last. -/
theorem view_after_last {β : Type} (view : Alarm → β) (tells? : EventBody → Option β)
    (hview : ∀ (event : Event) (a : Alarm), view (a.handle event).1 = (tells? event.body).getD (view a))
    (events : List Event) (a : Alarm) :
    view (a.after events) = (events.filterMap fun event => tells? event.body).getLast?.getD (view a) := by
  induction events generalizing a with
  | nil => rfl
  | cons event events ih =>
    refine (ih (a.handle event).1).trans ?_
    rw [hview, List.filterMap_cons]
    cases tells? event.body with
    | none => rfl
    | some told => simp [List.getLast?_cons]

theorem panel_after (events : List Event) (a : Alarm) :
    (a.after events).panel = a.panel.or (events.filterMap (·.body.panel?)).head? := by
  induction events generalizing a with
  | nil => exact (Option.or_none ..).symm
  | cons event events ih =>
    refine (ih (a.handle event).1).trans ?_
    rw [panel_handle, List.filterMap_cons]
    cases event.body.panel? with
    | none => simp
    | some info => cases a.panel <;> rfl

/-- The state runs through the signs. -/
theorem state_after (events : List Event) (a : Alarm) :
    (a.after events).state =
      (events.filterMap (·.body.sign?)).foldl (fun before sign => sign.state a.inferArming before) a.state := by
  induction events generalizing a with
  | nil => rfl
  | cons event events ih =>
    refine (ih (a.handle event).1).trans ?_
    rw [inferArming_handle, state_handle, List.filterMap_cons]
    cases event.body.sign? <;> rfl

theorem zones_after (i : Fin zoneCount) (infer : Bool) (events : List Event) :
    ((new infer).after events).zones.get i = (events.filterMap (·.body.tells? (i + 1))).getLast? := by
  have hunknown : (new infer).zones.get i = none := Vector.getElem_replicate _
  refine (view_after_last (fun a => a.zones.get i) (fun body => (body.tells? (i + 1)).map some)
    (zones_handle i) events _).trans ?_
  rw [hunknown, ← List.map_filterMap, List.getLast?_map]
  cases (events.filterMap (·.body.tells? (i + 1))).getLast? <;> rfl

theorem auxOutputs_after (output : AuxOutput) (infer : Bool) (events : List Event) :
    ((new infer).after events).auxOutputs.get output.place =
      (events.filterMap (·.body.auxOutputs?)).getLast?.map fun flags => flags.has output := by
  have hunknown : (new infer).auxOutputs.get output.place = none := Vector.getElem_replicate _
  refine (view_after_last (fun a => a.auxOutputs.get output.place)
    (fun body => body.auxOutputs?.map fun flags => some (flags.has output)) (auxOutputs_handle output)
    events _).trans ?_
  rw [hunknown, ← List.map_filterMap, List.getLast?_map]
  cases (events.filterMap (·.body.auxOutputs?)).getLast? <;> rfl

theorem mode_after (infer : Bool) (events : List Event) :
    ((new infer).after events).mode = (events.filterMap (·.body.mode?)).getLast?.join := by
  refine (view_after_last Alarm.mode EventBody.mode? mode_handle events _).trans ?_
  cases (events.filterMap (·.body.mode?)).getLast? <;> rfl

/-! ## Events of a part -/

/-- Histories that have the same events for a part tell the same of it. -/
theorem filterMap_eq_of_concerns {β : Type} (part : AlarmPart) {tells? : EventBody → Option β}
    (htells : ∀ body : EventBody, body.concerns part = (tells? body).isSome) {es fs : List Event}
    (h : (es.map Event.body).filter (·.concerns part) = (fs.map Event.body).filter (·.concerns part)) :
    (es.filterMap fun event => tells? event.body) = fs.filterMap fun event => tells? event.body := by
  have hall (gs : List Event) : (gs.filterMap fun event => tells? event.body) =
      ((gs.map Event.body).filter (·.concerns part)).filterMap tells? := by
    rw [List.filterMap_filter, List.filterMap_map]
    apply List.filterMap_congr
    intro event _
    simp only [Function.comp_apply, htells]
    cases tells? event.body <;> rfl
  rw [hall, hall, h]

theorem state_eq_of_concerns (infer : Bool) {es fs : List Event}
    (h : (es.map Event.body).filter (·.concerns .state) = (fs.map Event.body).filter (·.concerns .state)) :
    ((new infer).after es).state = ((new infer).after fs).state := by
  have hsigns := filterMap_eq_of_concerns .state (fun _ => rfl) h
  rw [state_after, state_after, hsigns]

theorem eq_of_parts (hinfer : a.inferArming = b.inferArming) (hstate : a.state = b.state)
    (hmode : a.mode = b.mode) (hpanel : a.panel = b.panel)
    (hzones : ∀ i : Fin zoneCount, a.zones.get i = b.zones.get i)
    (houtputs : ∀ output : AuxOutput, a.auxOutputs.get output.place = b.auxOutputs.get output.place) :
    a = b := by
  have hzones : a.zones = b.zones := Vector.ext fun i hi => hzones ⟨i, hi⟩
  have houtputs : a.auxOutputs = b.auxOutputs := Vector.ext fun i hi => houtputs ⟨⟨i, hi⟩⟩
  cases a
  cases b
  simp_all

/-- A zone, the outputs and the mode of an alarm are as the last of the events for them tells them, the panel
is as the first one tells it, and the state comes from the events for it alone. So two histories that have
the same events for each part, in the same order, make the same alarm, however these are interleaved. -/
theorem parts_independent (infer : Bool) (events : List Event) :
    let a := (new infer).after events
    (∀ i : Fin zoneCount, a.zones.get i = (events.filterMap (·.body.tells? (i + 1))).getLast?) ∧
    (∀ output : AuxOutput, a.auxOutputs.get output.place =
      (events.filterMap (·.body.auxOutputs?)).getLast?.map fun flags => flags.has output) ∧
    a.panel = (events.filterMap (·.body.panel?)).head? ∧
    a.mode = (events.filterMap (·.body.mode?)).getLast?.join ∧
    a.state = ((new infer).after (events.filter (·.body.concerns .state))).state ∧
    ∀ others : List Event,
      (∀ part : AlarmPart, (others.map Event.body).filter (·.concerns part) =
        (events.map Event.body).filter (·.concerns part)) →
      (new infer).after others = a := by
  intro a
  refine ⟨fun i => zones_after i infer events, fun output => auxOutputs_after output infer events,
    panel_after events _, mode_after infer events, ?_, fun others hparts => ?_⟩
  · apply state_eq_of_concerns
    rw [List.filter_map, List.filter_map, List.filter_filter]
    simp [Function.comp_def]
  · -- Every part has its own fold over the events, and this sees only the events that concern the part.
    apply eq_of_parts
    · exact (inferArming_after others _).trans (inferArming_after events _).symm
    · exact state_eq_of_concerns infer (hparts .state)
    · rw [mode_after, mode_after, filterMap_eq_of_concerns .mode (fun _ => rfl) (hparts .mode)]
    · rw [panel_after, panel_after, filterMap_eq_of_concerns .panel (fun _ => rfl) (hparts .panel)]
    · intro i
      rw [zones_after, zones_after, filterMap_eq_of_concerns (.zone i) (fun _ => rfl) (hparts (.zone i))]
    · intro output
      rw [auxOutputs_after, auxOutputs_after,
        filterMap_eq_of_concerns .auxOutputs (fun _ => rfl) (hparts .auxOutputs)]

/-- A zone, a bank that holds another one, the outputs, two versions of the panel, and an arming whose progress
is polled, told in two ways; the zone forty does not exist. -/
theorem parts_independent_interleaved :
    let unsealed : EventBody := .system ⟨.unsealed, 3, 0⟩
    let bank : EventBody := .status (.zone .upper .inputUnsealed (.ofList [⟨6⟩]))
    let outputs : EventBody := .status (.auxOutputs (.ofList [⟨2⟩]))
    let first : EventBody := .status (.panelVersion .d16x 8 7)
    let second : EventBody := .status (.panelVersion .d16x3G 9 1)
    let armed : EventBody := .system ⟨.armedHome, 0, 0⟩
    let poll : EventBody := .status (.arming (.ofList [.areaOneArmed]))
    let unknown : EventBody := .system ⟨.sealed, 40, 0⟩
    let events := [unsealed, bank, unknown, outputs, first, second, armed, poll].map (⟨none, none, ·⟩)
    let others := [armed, first, bank, unsealed, poll, second, outputs, unknown].map (⟨some 1, none, ·⟩)
    (∀ part : AlarmPart, (others.map Event.body).filter (·.concerns part) =
      (events.map Event.body).filter (·.concerns part)) ∧
      (new false).after others = (new false).after events := by
  intro unsealed bank outputs first second armed poll unknown events others
  have hparts (part : AlarmPart) : (others.map Event.body).filter (·.concerns part) =
      (events.map Event.body).filter (·.concerns part) := by
    cases part
    case zone i => decide +revert
    all_goals decide
  exact ⟨hparts, (parts_independent false events).2.2.2.2.2 others hparts⟩

end Alarm

end AlarmPanel
