import AlarmPanel.Proofs.Alarm.Parts
import AlarmPanel.Proofs.Panel.Lockstep

/-!
# What the frames of a panel tell

Whatever happens to a panel, the frames that it sends then tell every change of a part of it
(`SimulatedPanel.Tells`). Most frames tell how the panel is when they are sent (`SimulatedPanel.Reports`).
Only an answer tells how the panel was when it was asked, and it may be sent much later:
`SimulatedPanel.exists_told_of_perform?` says that there is nothing else.

So what an alarm knows of a part depends on the last frame that tells it anything of the part, and `LastTold`
says where in a history that frame comes from.
-/

namespace AlarmPanel

/-- None of the events is one for the part. -/
def Untold (part : AlarmPart) (events : List Event) : Prop :=
  ∀ event ∈ events, event.body.concerns part = false

theorem untold_append {part : AlarmPart} {es fs : List Event} :
    Untold part (es ++ fs) ↔ Untold part es ∧ Untold part fs := List.forall_mem_append

theorem untold_zone_iff {i : Fin zoneCount} {events : List Event} :
    Untold (.zone i) events ↔ events.filterMap (·.body.tells? (i + 1)) = [] := by
  rw [List.filterMap_eq_nil_iff]
  exact forall₂_congr fun event _ => Option.isSome_eq_false_iff.trans Option.isNone_iff_eq_none

theorem untold_state_iff {events : List Event} :
    Untold .state events ↔ events.filterMap (·.body.sign?) = [] := by
  rw [List.filterMap_eq_nil_iff]
  exact forall₂_congr fun event _ => Option.isSome_eq_false_iff.trans Option.isNone_iff_eq_none

/-- Events without a sign leave the state of an alarm as it is. -/
theorem Alarm.state_after_of_untold {events : List Event} (h : Untold .state events) (a : Alarm) :
    (a.after events).state = a.state := by
  rw [state_after, untold_state_iff.mp h, List.foldl_nil]

/-- Every move is told by an event with a sign. -/
theorem exists_sign_transitionEvents (previous next : PanelState) (mode : Option ArmingMode) :
    ∃ type ∈ transitionEvents previous next mode, type.sign?.isSome := by
  cases next with
  | disarmed => exact ⟨.disarmed, by simp [transitionEvents], rfl⟩
  | exitDelay => exact ⟨.exitDelayStart, by simp [transitionEvents], rfl⟩
  | armed => exact ⟨.exitDelayEnd, by simp [transitionEvents], rfl⟩
  | entryDelay => exact ⟨.entryDelayStart, by simp [transitionEvents], rfl⟩
  | tripped => exact ⟨.alarm, by simp [transitionEvents], rfl⟩

namespace SimulatedPanel

variable {p q r : SimulatedPanel} {told more events : List Event} {action : PanelAction}
  {actions : List PanelAction}

/-! ## Changes are told -/

/-- On the way from one panel to the other these events are sent, and every part that they do not tell is as
it was. -/
structure Tells (p : SimulatedPanel) (told : List Event) (q : SimulatedPanel) : Prop where
  clock_eq : q.clock = p.clock
  length_eq : q.zones.length = p.zones.length
  sent : ∀ {events}, p.Sent events → q.Sent (events ++ told)
  state_eq : Untold .state told → q.state = p.state
  zone_eq : ∀ i : Fin zoneCount, Untold (.zone i) told → q.zone? (i + 1) = p.zone? (i + 1)

theorem Tells.trans (h : Tells p told q) (h' : Tells q more r) : Tells p (told ++ more) r where
  clock_eq := h'.clock_eq.trans h.clock_eq
  length_eq := h'.length_eq.trans h.length_eq
  sent hsent := by
    rw [← List.append_assoc]
    exact h'.sent (h.sent hsent)
  state_eq huntold := by
    obtain ⟨htold, hmore⟩ := untold_append.mp huntold
    exact (h'.state_eq hmore).trans (h.state_eq htold)
  zone_eq i huntold := by
    obtain ⟨htold, hmore⟩ := untold_append.mp huntold
    exact (h'.zone_eq i hmore).trans (h.zone_eq i htold)

/-- Moreover the events tell how the panel is in the end. Of the state this is said only of an alarm and of
the delay before it: when a panel becomes armed, an alarm is told no more than that the exit delay is over. -/
structure Reports (p : SimulatedPanel) (told : List Event) (q : SimulatedPanel) : Prop
    extends Tells p told q where
  state : ¬Untold .state told → q.state = .entryDelay ∨ q.state = .tripped →
    ∀ a : Alarm, (a.after told).state = q.state.image
  replies_eq : q.replies = p.replies
  zone : ∀ (i : Fin zoneCount) (unsealed : Bool),
    (told.filterMap (·.body.tells? (i + 1))).getLast? = some unsealed → q.zone? (i + 1) = some unsealed

theorem Reports.trans (h : Reports p told q) (h' : Reports q more r) : Reports p (told ++ more) r where
  toTells := h.toTells.trans h'.toTells
  state htold hstate a := by
    rw [Alarm.after_append]
    by_cases hmore : Untold .state more
    · have hsame : r.state = q.state := h'.state_eq hmore
      have hbefore : ¬Untold .state told := fun huntold => htold (untold_append.mpr ⟨huntold, hmore⟩)
      rw [hsame] at hstate
      rw [Alarm.state_after_of_untold hmore, hsame]
      exact h.state hbefore hstate a
    · exact h'.state hmore hstate _
  replies_eq := h'.replies_eq.trans h.replies_eq
  zone i unsealed hlast := by
    rw [List.filterMap_append, List.getLast?_append] at hlast
    cases hmore : (more.filterMap (·.body.tells? (i + 1))).getLast? with
    | some value =>
      rw [hmore, Option.some_or] at hlast
      rw [← hlast]
      exact h'.zone i value hmore
    | none =>
      rw [hmore, Option.none_or] at hlast
      rw [h'.zone_eq i (untold_zone_iff.mpr (List.getLast?_eq_none_iff.mp hmore))]
      exact h.zone i unsealed hlast

/-- What else a panel keeps is not told. -/
theorem Reports.still (hclock : q.clock = p.clock) (hzones : q.zones = p.zones)
    (hstate : q.state = p.state) (hreplies : q.replies = p.replies) (hframes : q.frames = p.frames) :
    Reports p [] q where
  clock_eq := hclock
  length_eq := congrArg List.length hzones
  sent {events} h := by
    rw [List.append_nil, Sent, hframes]
    exact h
  state_eq _ := hstate
  zone_eq i _ := by rw [zone?, zone?, hzones]
  state h := absurd (fun _ hevent => absurd hevent List.not_mem_nil) h
  replies_eq := hreplies
  zone i unsealed hlast := by cases hlast

theorem Tells.refl (p : SimulatedPanel) : Tells p [] p := (Reports.still rfl rfl rfl rfl rfl).toTells

/-! ## Operations -/

theorem exists_reports_moveTo (hclock : ClockInCentury p.clock) (next : PanelState) :
    ∃ told, Reports p told (p.moveTo next) := by
  obtain ⟨told, hbody, hsends⟩ := exists_sent_moveTo hclock next
  have hsign : ¬Untold .state told := by
    intro huntold
    obtain ⟨type, htype, hsome⟩ := exists_sign_transitionEvents p.state next p.mode
    have hmem : EventBody.system ⟨type, 0, 0⟩ ∈ told.map Event.body := by
      rw [hbody]
      exact List.mem_map_of_mem htype
    obtain ⟨event, hevent, heq⟩ := List.mem_map.mp hmem
    have hnone := huntold event hevent
    rw [heq] at hnone
    exact absurd hsome (Bool.not_eq_true _ ▸ hnone)
  have hzones (i : Fin zoneCount) : told.filterMap (·.body.tells? (i + 1)) = [] := by
    refine List.filterMap_eq_nil_iff.mpr fun event hevent => ?_
    have hmem : event.body ∈ told.map Event.body := List.mem_map_of_mem hevent
    rw [hbody] at hmem
    obtain ⟨type, -, htype⟩ := List.mem_map.mp hmem
    rw [← htype]
    simp [EventBody.tells?]
  refine ⟨told, ⟨?_, ?_, hsends, fun h => absurd h hsign, fun i _ => ?_⟩, fun _ hstate a => ?_, ?_, ?_⟩
  · rw [moveTo_eq]
  · rw [moveTo_eq]
  · rw [moveTo_eq]
    rfl
  · have hnext : (p.moveTo next).state = next := by rw [moveTo_eq]
    rw [hnext] at hstate ⊢
    have hsame : told.map Event.body =
        ((transitionEvents p.state next p.mode).map Alarm.panelEvent).map Event.body := by
      rw [hbody, List.map_map]
      rfl
    have harmed : next = .armed → a.state = .exitDelay := by
      rintro rfl
      simp at hstate
    rw [Alarm.after_congr hsame, Alarm.after_transitionEvents _ _ _ _ harmed]
  · rw [moveTo_eq]
  · intro i unsealed hlast
    rw [hzones] at hlast
    cases hlast

theorem reports_moveAfter (millis : UInt64) (next : PanelState) (p : SimulatedPanel) :
    Reports p [] (p.moveAfter millis next) := .still rfl rfl rfl rfl rfl

theorem exists_reports_arm (hclock : ClockInCentury p.clock) (mode : ArmingMode) :
    ∃ told, Reports p told (p.arm mode) := by
  obtain ⟨told, htold⟩ := exists_reports_moveTo (p := { p with mode := some mode }) hclock .exitDelay
  have hbefore : Reports p [] { p with mode := some mode } := .still rfl rfl rfl rfl rfl
  exact ⟨_, (hbefore.trans htold).trans (reports_moveAfter ..)⟩

theorem exists_reports_disarm (hclock : ClockInCentury p.clock) : ∃ told, Reports p told p.disarm := by
  obtain ⟨told, htold⟩ :=
    exists_reports_moveTo (p := { p with generation := p.generation + 1, mode := none }) hclock .disarmed
  have hbefore : Reports p [] { p with generation := p.generation + 1, mode := none } :=
    .still rfl rfl rfl rfl rfl
  exact ⟨_, hbefore.trans htold⟩

theorem exists_reports_trip (hclock : ClockInCentury p.clock) : ∃ told, Reports p told p.trip := by
  obtain ⟨told, htold⟩ := exists_reports_moveTo hclock .entryDelay
  exact ⟨_, htold.trans (reports_moveAfter ..)⟩

theorem exists_reports_expire (hclock : ClockInCentury p.clock) (index : Nat) :
    ∃ told, Reports p told (p.expire index) := by
  unfold expire
  split
  next => exact ⟨[], .still rfl rfl rfl rfl rfl⟩
  next t ht =>
    have hbefore : Reports p [] { p with delayed := p.delayed.eraseIdx index } := .still rfl rfl rfl rfl rfl
    dsimp only
    split
    next =>
      obtain ⟨told, htold⟩ :=
        exists_reports_moveTo (p := { p with delayed := p.delayed.eraseIdx index }) hclock t.next
      exact ⟨_, hbefore.trans htold⟩
    next => exact ⟨[], hbefore⟩

theorem exists_reports_turnZone (hclock : ClockInCentury p.clock) (hle : p.zones.length ≤ zoneCount)
    {number : UInt8} (unsealed : Bool) (hnumber : 1 ≤ number.toNat ∧ number.toNat ≤ p.zones.length) :
    ∃ told, Reports p told (p.turnZone number unsealed) := by
  let turned : SimulatedPanel := { p with zones := p.zones.set (number.toNat - 1) unsealed }
  let event := turned.reported (if unsealed then .unsealed else .sealed) number
  have hsmall : number ≤ 99 := by
    rw [UInt8.le_iff_toNat_le]
    change number.toNat ≤ 99
    unfold zoneCount at hle
    omega
  have hsign : event.body.sign? = none := by cases unsealed <;> rfl
  have htells (n : Nat) : event.body.tells? n = if number.toNat = n then some unsealed else none := by
    cases unsealed <;> simp [event, reported, EventBody.tells?]
  have hzone (n : Nat) : (p.turnZone number unsealed).zone? n =
      if number.toNat = n then some unsealed else p.zone? n := by
    rw [turnZone_eq]
    exact zone?_set hnumber.1 hnumber.2 unsealed n
  refine ⟨[event], ⟨?_, ?_, fun h => sent_report (p := turned) hclock h _ _ hsmall, fun _ => ?_,
    fun i huntold => ?_⟩, fun h => absurd ?_ h, ?_, fun i value hlast => ?_⟩
  · rw [turnZone_eq]
  · rw [turnZone_eq]
    exact List.length_set
  · rw [turnZone_eq]
  · have hother : number.toNat ≠ i + 1 := by
      intro h
      have hnone := untold_zone_iff.mp huntold
      simp [htells, h] at hnone
    rw [hzone, if_neg hother]
  · refine untold_state_iff.mpr ?_
    simp [hsign]
  · rw [turnZone_eq]
  · rw [hzone]
    by_cases h : number.toNat = i + 1
    · simp only [List.filterMap_cons, htells, if_pos h, List.filterMap_nil, List.getLast?_singleton] at hlast
      rw [if_pos h, hlast]
    · simp [htells, h] at hlast

theorem exists_reports_setZone (hclock : ClockInCentury p.clock) (hle : p.zones.length ≤ zoneCount)
    {number : UInt8} {unsealed : Bool} (hq : p.setZone number unsealed = .ok q) :
    ∃ told, Reports p told q := by
  obtain ⟨hnumber, rfl⟩ := setZone_eq_ok_iff.mp hq
  obtain ⟨told, htold⟩ := exists_reports_turnZone hclock hle unsealed hnumber
  split
  next =>
    have hclock' : ClockInCentury (p.turnZone number unsealed).clock := htold.clock_eq ▸ hclock
    obtain ⟨more, hmore⟩ := exists_reports_trip hclock'
    exact ⟨_, htold.trans hmore⟩
  next => exact ⟨_, htold⟩

theorem exists_reports_setAuxOutput {number : UInt8} {on : Bool} (hq : p.setAuxOutput number on = .ok q) :
    ∃ told, Reports p told q := by
  unfold setAuxOutput at hq
  split at hq
  next =>
    cases hq
    exact ⟨[], .still rfl rfl rfl rfl rfl⟩
  next => cases hq

theorem exists_reports_startActivity (p : SimulatedPanel) : ∃ told, Reports p told p.startActivity := by
  unfold startActivity
  split <;> exact ⟨[], .still rfl rfl rfl rfl rfl⟩

theorem exists_reports_wake (hclock : ClockInCentury p.clock) (hle : p.zones.length ≤ zoneCount)
    (index drawnZone restMillis : Nat) : ∃ told, Reports p told (p.wake index drawnZone restMillis) := by
  unfold wake
  split
  next => exact ⟨[], .still rfl rfl rfl rfl rfl⟩
  next activity hactivity =>
    have hawake : Reports p [] { p with activities := p.activities.eraseIdx index } := .still rfl rfl rfl rfl rfl
    dsimp only
    split
    next =>
      split
      next q hq =>
        obtain ⟨told, htold⟩ :=
          exists_reports_setZone (p := { p with activities := p.activities.eraseIdx index }) hclock hle hq
        exact ⟨_, (hawake.trans htold).trans (.still rfl rfl rfl rfl rfl)⟩
      next => exact ⟨[], hawake⟩
    next => exact ⟨[], hawake⟩

/-! ## One action -/

/-- The answer that a panel forms to the text of a command, if it is asked for one. -/
def replyTo? (text : String) (p : SimulatedPanel) : Option StatusUpdate :=
  match UserCommand.parse? p.settings.userCode text with
  | some (.askZones bank) => some (.zone bank .inputUnsealed (p.zoneWord bank))
  | some .askArming => some (.arming (armingStatus p.state))
  | some .askVersion => some p.version
  | some .askAuxOutputs => some (.auxOutputs p.auxOutputs)
  | _ => none

/-- What an action tells: how the panel is after it, or nothing while an answer is formed, or an answer that
had been formed. -/
inductive Told (p : SimulatedPanel) (action : PanelAction) (told : List Event) (q : SimulatedPanel) : Prop
  | report (h : Reports p told q)
  | ask (text : String) (update : StatusUpdate) (haction : action = .accept text)
      (hformed : p.replyTo? text = some update) (hreplies : q.replies = p.replies ++ [update])
      (htold : told = []) (h : Tells p told q)
  | answer (index : Nat) (update : StatusUpdate) (haction : action = .sendReply index)
      (hupdate : p.replies[index]? = some update) (hreplies : q.replies = p.replies.eraseIdx index)
      (hstate : q.state = p.state) (hzones : q.zones = p.zones) (htold : told = [answered update])
      (h : Tells p told q)

theorem Told.tells (h : Told p action told q) : Tells p told q := by
  cases h with
  | report h => exact h.toTells
  | ask _ _ _ _ _ _ h => exact h
  | answer _ _ _ _ _ _ _ _ h => exact h

/-- A command that asks for an answer forms it and sends nothing. -/
theorem exists_told_accept (hclock : ClockInCentury p.clock) (text : String) :
    ∃ told, Told p (.accept text) told (p.accept text) := by
  have hreport {q : SimulatedPanel} (hq : ∃ told, Reports p told q) :
      ∃ told, Told p (.accept text) told q := hq.imp fun _ => .report
  have hask {update : StatusUpdate} (hformed : p.replyTo? text = some update) :
      ∃ told, Told p (.accept text) told { p with replies := p.replies ++ [update] } := by
    have hstill : Tells p [] { p with replies := p.replies ++ [update] } :=
      ⟨rfl, rfl, fun h => by rwa [List.append_nil], fun _ => rfl, fun _ _ => rfl⟩
    exact ⟨[], .ask text update rfl hformed rfl rfl hstill⟩
  unfold replyTo? at hask
  unfold accept
  cases hcommand : UserCommand.parse? p.settings.userCode text with
  | none => exact hreport ⟨[], .still rfl rfl rfl rfl rfl⟩
  | some command =>
    rw [hcommand] at hask
    cases command with
    | arm mode => exact hreport (exists_reports_arm hclock mode)
    | disarm => exact hreport (exists_reports_disarm hclock)
    | setAuxOutput number on =>
      simp only [obey]
      split
      next q hq => exact hreport (exists_reports_setAuxOutput hq)
      next => exact hreport ⟨[], .still rfl rfl rfl rfl rfl⟩
    | askZones bank => exact hask rfl
    | askArming => exact hask rfl
    | askVersion => exact hask rfl
    | askAuxOutputs => exact hask rfl

/-- Sending an answer tells the answer and changes nothing else that is told. -/
theorem told_sendReply {index : Nat} {update : StatusUpdate} (hupdate : p.replies[index]? = some update) :
    Told p (.sendReply index) [answered update] (p.sendReply index) := by
  let rest : SimulatedPanel := { p with replies := p.replies.eraseIdx index }
  have hreply : p.sendReply index = rest.answer update := by
    rw [sendReply, hupdate]
  have hrest : rest.answer update = { rest with frames := (rest.answer update).frames } := send_eq _ rest
  have hzones : (rest.answer update).zones = p.zones := by rw [hrest]
  have hstate : (rest.answer update).state = p.state := by rw [hrest]
  have htells : Tells p [answered update] (rest.answer update) :=
    { clock_eq := by rw [hrest]
      length_eq := congrArg List.length hzones
      sent := fun h => sent_answer (p := rest) h update
      state_eq := fun _ => hstate
      zone_eq := fun i _ => by rw [zone?, zone?, hzones] }
  rw [hreply]
  exact .answer index update rfl hupdate (by rw [hrest]) hstate hzones rfl htells

/-- Whatever happens to a panel is told by reports of how it is then, unless it forms or sends an answer. -/
theorem exists_told_of_perform? (hclock : ClockInCentury p.clock) (hle : p.zones.length ≤ zoneCount)
    (h : p.perform? action = some q) : ∃ told, Told p action told q := by
  have hreport (hq : ∃ told, Reports p told q) : ∃ told, Told p action told q := hq.imp fun _ => .report
  cases action with
  | arm mode =>
    cases h
    exact hreport (exists_reports_arm hclock mode)
  | disarm =>
    cases h
    exact hreport (exists_reports_disarm hclock)
  | trip =>
    cases h
    exact hreport (exists_reports_trip hclock)
  | setZone number unsealed =>
    exact hreport (exists_reports_setZone hclock hle (toOption_eq_some_iff.mp h))
  | setAuxOutput number on => exact hreport (exists_reports_setAuxOutput (toOption_eq_some_iff.mp h))
  | accept text =>
    cases h
    exact exists_told_accept hclock text
  | sendReply index =>
    obtain ⟨hindex, hq⟩ := Option.ite_none_right_eq_some.mp h
    cases hq
    exact ⟨_, told_sendReply (List.getElem?_eq_getElem hindex)⟩
  | startActivity =>
    cases h
    exact hreport (exists_reports_startActivity p)
  | stopActivity =>
    cases h
    exact hreport ⟨[], .still rfl rfl rfl rfl rfl⟩
  | expire index =>
    rw [expire_of_perform? h] at hreport ⊢
    exact hreport (exists_reports_expire hclock index)
  | wake index drawnZone restMillis =>
    rw [wake_of_perform? h] at hreport ⊢
    exact hreport (exists_reports_wake hclock hle index drawnZone restMillis)
  | pass millis =>
    obtain ⟨-, hq⟩ := Option.ite_none_right_eq_some.mp h
    cases hq
    exact hreport ⟨[], .still rfl rfl rfl rfl rfl⟩

/-! ## Histories -/

/-- Where the last of the events for a part comes from. -/
inductive LastTold (part : AlarmPart) (p : SimulatedPanel) (actions : List PanelAction) (told : List Event)
    (q : SimulatedPanel) : Prop
  | nowhere (h : Untold part told)
  | action {before after : List PanelAction} {action : PanelAction} {r s : SimulatedPanel}
      {earlier now later : List Event} (hactions : actions = before ++ action :: after)
      (hbefore : p.performAll? before = some r) (hearlier : Tells p earlier r)
      (hnow : Told r action now s) (hlater : Tells s later q) (htold : told = earlier ++ now ++ later)
      (hpart : ¬Untold part now) (huntold : Untold part later)

/-- What a history tells is told by one of its actions last, or not at all. -/
theorem exists_lastTold (part : AlarmPart) (hclock : ClockInCentury p.clock)
    (hle : p.zones.length ≤ zoneCount) (h : p.performAll? actions = some q) :
    ∃ told, Tells p told q ∧ LastTold part p actions told q := by
  induction actions generalizing p with
  | nil =>
    cases h
    exact ⟨[], .refl _, .nowhere fun _ hevent => absurd hevent List.not_mem_nil⟩
  | cons action actions ih =>
    obtain ⟨r, hr : p.perform? action = some r, hq⟩ := Option.bind_eq_some_iff.mp h
    obtain ⟨now, hnow⟩ := exists_told_of_perform? hclock hle hr
    obtain ⟨told, htold, hlast⟩ := ih (hnow.tells.clock_eq ▸ hclock) (hnow.tells.length_eq ▸ hle) hq
    refine ⟨now ++ told, hnow.tells.trans htold, ?_⟩
    cases hlast with
    | @action before after last _ _ _ _ _ hactions hbefore hearlier hact hlater heq hpart huntold =>
      have hsplit : action :: actions = (action :: before) ++ last :: after := congrArg (action :: ·) hactions
      refine .action hsplit (Option.bind_eq_some_iff.mpr ⟨r, hr, hbefore⟩) (hnow.tells.trans hearlier) hact
        hlater ?_ hpart huntold
      rw [heq]
      simp only [List.append_assoc]
    | nowhere huntold =>
      by_cases hpart : Untold part now
      · exact .nowhere (untold_append.mpr ⟨hpart, huntold⟩)
      · have hsplit : action :: actions = [] ++ action :: actions := rfl
        exact .action hsplit rfl (.refl _) hnow htold rfl hpart huntold

theorem exists_tells_of_performAll? (hclock : ClockInCentury p.clock) (hle : p.zones.length ≤ zoneCount)
    (h : p.performAll? actions = some q) : ∃ told, Tells p told q :=
  (exists_lastTold .state hclock hle h).imp fun _ => And.left

end SimulatedPanel

end AlarmPanel
