import AlarmPanel.Proofs.Panel.Telling

/-!
# Answers that come late

An answer is formed from the panel as it stands and sent afterwards (`SimulatedPanel.Answers`). What happens
in between is told first, and then the answer tells how the panel was. An alarm that takes in all frames is
wrong about a zone just when such an answer was the last to tell of it (`SimulatedPanel.zone_known_iff`). The
same goes for the state, with one difference: an arming status is empty in the entry delay and in alarm, so
even an answer that comes at once makes an alarm take the panel for disarmed
(`SimulatedPanel.alarm_disarmed_iff`).
-/

namespace AlarmPanel

namespace SimulatedPanel

variable {p q p₀ asked answering : SimulatedPanel} {told events : List Event} {action : PanelAction}
  {actions : List PanelAction} {text : String} {update : StatusUpdate}

/-! ## Frames and events -/

theorem Sent.unique (h : p.Sent told) (h' : p.Sent events) : told = events :=
  Except.ok.inj (h.symm.trans h')

theorem Sent.length_eq (h : p.Sent events) : events.length = p.frames.length := length_of_mapM_eq_ok h

/-- The zones that a panel has stay the same. -/
theorem Tells.exists_zone? (h : Tells p told q) {number : Nat} {unsealed : Bool}
    (hzone : q.zone? number = some unsealed) : ∃ before, p.zone? number = some before := by
  unfold zone? at hzone ⊢
  split at hzone
  next => cases hzone
  next hnumber =>
    have hlt := (List.getElem?_eq_some_iff.mp hzone).1
    rw [h.length_eq] at hlt
    rw [if_neg hnumber]
    exact ⟨_, List.getElem?_eq_getElem hlt⟩

/-- A panel that has sent nothing yet and has nothing to answer. -/
structure Fresh (p : SimulatedPanel) : Prop where
  clock : ClockInCentury p.clock
  length_le : p.zones.length ≤ zoneCount
  sent : p.Sent []
  replies_eq : p.replies = []

theorem fresh_new (settings : PanelSettings) {clock : Nat → Timestamp} (h : ClockInCentury clock) :
    Fresh (new settings clock) :=
  ⟨h, Lockstep.zones_length_new settings clock, rfl, rfl⟩

/-- The event of a frame stands behind as many as there were frames. -/
theorem Fresh.drop_frames (hfresh : Fresh p) (h : Tells p told q) (event : Event) (later : List Event) :
    (told ++ [event] ++ later).drop (q.frames.length + 1) = later := by
  have hlength : told.length = q.frames.length := (h.sent hfresh.sent).length_eq
  rw [← hlength]
  simp

/-! ## Answers and their origin -/

/-- An answer that is still to be sent has been formed by the action or before it. -/
theorem Told.mem_replies (h : Told p action told q) (hmem : update ∈ q.replies) :
    update ∈ p.replies ∨ ∃ text, action = .accept text ∧ p.replyTo? text = some update := by
  cases h with
  | report h => exact .inl (h.replies_eq ▸ hmem)
  | ask text formed haction hformed hreplies htold h =>
    rw [hreplies, List.mem_append, List.mem_singleton] at hmem
    exact hmem.imp_right fun hnew => ⟨text, haction, hformed.trans (congrArg some hnew.symm)⟩
  | answer index sent haction hsent hreplies hstate hzones htold h =>
    rw [hreplies] at hmem
    exact .inl (List.mem_of_mem_eraseIdx hmem)

/-- Where a history forms an answer that is still to be sent. -/
theorem exists_accept_of_mem_replies (hclock : ClockInCentury p.clock) (hle : p.zones.length ≤ zoneCount)
    (h : p.performAll? actions = some q) (hmem : update ∈ q.replies) :
    update ∈ p.replies ∨ ∃ before text between asked,
      actions = before ++ .accept text :: between ∧ p.performAll? before = some asked ∧
        asked.performAll? (.accept text :: between) = some q ∧ asked.replyTo? text = some update := by
  induction actions generalizing p with
  | nil =>
    cases h
    exact .inl hmem
  | cons action actions ih =>
    obtain ⟨r, hr : p.perform? action = some r, hq⟩ := Option.bind_eq_some_iff.mp h
    obtain ⟨told, htold⟩ := exists_told_of_perform? hclock hle hr
    rcases ih (htold.tells.clock_eq ▸ hclock) (htold.tells.length_eq ▸ hle) hq with
      hold | ⟨before, text, between, asked, hactions, hbefore, hafter, hreply⟩
    · rcases htold.mem_replies hold with hold | ⟨text, rfl, hreply⟩
      · exact .inl hold
      · exact .inr ⟨[], text, actions, _, rfl, rfl, h, hreply⟩
    · exact .inr ⟨action :: before, text, between, asked, congrArg (action :: ·) hactions,
        Option.bind_eq_some_iff.mpr ⟨r, hr, hbefore⟩, hafter, hreply⟩

/-- In the history the text asks one panel for an answer, and another one sends it. -/
inductive Answers (p₀ : SimulatedPanel) (actions : List PanelAction) (text : String)
    (asked answering : SimulatedPanel) : Prop
  | intro {before between after : List PanelAction} {index : Nat} {update : StatusUpdate}
      (hactions : actions = (before ++ .accept text :: between) ++ .sendReply index :: after)
      (hasked : p₀.performAll? before = some asked)
      (hbetween : asked.performAll? (.accept text :: between) = some answering)
      (hformed : asked.replyTo? text = some update)
      (hsent : answering.replies[index]? = some update)

/-- The event of an answer stands where the frames end that had been sent before it. -/
theorem Answers.split (hfresh : Fresh p₀) (h : Answers p₀ actions text asked answering)
    (hrun : p₀.performAll? actions = some p) (hevents : p.Sent events) :
    ∃ update earlier, asked.replyTo? text = some update ∧
      events = earlier ++ [answered update] ++ events.drop (answering.frames.length + 1) := by
  obtain @⟨before, between, after, index, update, hactions, hasked, hbetween, hformed, hsent⟩ := h
  have hanswering := performAll?_trans hasked hbetween
  rw [hactions, performAll?_append, hanswering, Option.bind_some] at hrun
  obtain ⟨s, hs, hafter⟩ := Option.bind_eq_some_iff.mp hrun
  obtain ⟨-, hs⟩ := Option.ite_none_right_eq_some.mp hs
  cases hs
  obtain ⟨earlier, hearlier⟩ := exists_tells_of_performAll? hfresh.clock hfresh.length_le hanswering
  have hthere := hearlier.trans (told_sendReply hsent).tells
  obtain ⟨later, hlater⟩ := exists_tells_of_performAll? (hthere.clock_eq ▸ hfresh.clock)
    (hthere.length_eq ▸ hfresh.length_le) hafter
  have hall : events = earlier ++ [answered update] ++ later :=
    hevents.unique ((hthere.trans hlater).sent hfresh.sent)
  refine ⟨update, earlier, hformed, ?_⟩
  rw [hall, hfresh.drop_frames hearlier]

/-- An answer that is sent in a history from a fresh panel has been asked for in it. -/
theorem Fresh.exists_answers (hfresh : Fresh p₀) {before after : List PanelAction} {index : Nat}
    (hactions : actions = before ++ .sendReply index :: after)
    (hbefore : p₀.performAll? before = some answering) (hsent : answering.replies[index]? = some update) :
    ∃ text asked, Answers p₀ actions text asked answering ∧ asked.replyTo? text = some update ∧
      ∃ told, Tells asked told answering := by
  rcases exists_accept_of_mem_replies hfresh.clock hfresh.length_le hbefore (List.mem_of_getElem? hsent) with
    hold | ⟨earlier, text, between, asked, hsplit, hasked, hbetween, hformed⟩
  · rw [hfresh.replies_eq] at hold
    cases hold
  · obtain ⟨told, htold⟩ := exists_tells_of_performAll? hfresh.clock hfresh.length_le hasked
    have hwait := exists_tells_of_performAll? (htold.clock_eq ▸ hfresh.clock)
      (htold.length_eq ▸ hfresh.length_le) hbetween
    exact ⟨text, asked, ⟨hsplit ▸ hactions, hasked, hbetween, hformed, hsent⟩, hformed, hwait⟩

/-! ## Zones -/

/-- An answer that tells of a zone is one about the zones of its bank, and tells how the zone was. -/
theorem eq_askZones_of_tells? {number : Nat} {unsealed told : Bool}
    (hformed : asked.replyTo? text = some update) (hzone : asked.zone? number = some unsealed)
    (htells : EventBody.tells? number (.status update.carried) = some told) :
    ∃ bank, text = (RequestId.zone bank .inputUnsealed).command ∧ (bank.zoneAt? number).isSome ∧
      unsealed = told := by
  unfold replyTo? at hformed
  split at hformed
  next bank hcommand =>
    cases hformed
    rw [Lockstep.tells?_zoneWord bank hzone] at htells
    obtain ⟨z, hz, heq⟩ := Option.map_eq_some_iff.mp htells
    exact ⟨bank, UserCommand.parse?_eq_askZones_iff.mp hcommand, Option.isSome_of_mem hz, heq⟩
  next =>
    cases hformed
    cases htells
  next =>
    cases hformed
    cases htells
  next =>
    cases hformed
    cases htells
  next => cases hformed

/-- What an alarm knows of a zone, if the events after a certain one do not tell it. -/
theorem zones_after_of_untold {i : Fin zoneCount} {earlier later : List Event} (told : List Event)
    (hlater : Untold (.zone i) later) (htold : ¬Untold (.zone i) told) (infer : Bool) :
    ((Alarm.new infer).after (earlier ++ told ++ later)).zones.get i =
      (told.filterMap (·.body.tells? (i + 1))).getLast? := by
  have hsome : told.filterMap (·.body.tells? (i + 1)) ≠ [] := fun h => htold (untold_zone_iff.mpr h)
  rw [Alarm.zones_after, List.filterMap_append, List.filterMap_append, untold_zone_iff.mp hlater,
    List.append_nil, List.getLast?_append_of_ne_nil _ hsome]

/-- An answer about the zones of a bank tells how each of them is. -/
theorem tells_answered_zone (bank : ZoneBank) {i : Fin zoneCount} {unsealed : Bool}
    (hbank : (bank.zoneAt? (i + 1)).isSome) (hzone : asked.zone? (i + 1) = some unsealed) :
    [answered (.zone bank .inputUnsealed (asked.zoneWord bank))].filterMap (·.body.tells? (i + 1)) =
      [unsealed] := by
  obtain ⟨z, hz⟩ := Option.isSome_iff_exists.mp hbank
  have htells := Lockstep.tells?_zoneWord bank hzone
  rw [hz] at htells
  exact List.filterMap_cons_some htells

/-- When an answer is the last to tell of a zone, an alarm takes the zone to be as it was when the panel was
asked. -/
theorem Answers.zones_after {bank : ZoneBank} (hfresh : Fresh p₀)
    (h : Answers p₀ actions (RequestId.zone bank .inputUnsealed).command asked answering)
    (hrun : p₀.performAll? actions = some p) (hevents : p.Sent events) {i : Fin zoneCount} {unsealed : Bool}
    (hbank : (bank.zoneAt? (i + 1)).isSome) (hasked : asked.zone? (i + 1) = some unsealed)
    (huntold : Untold (.zone i) (events.drop (answering.frames.length + 1))) (infer : Bool) :
    ((Alarm.new infer).after events).zones.get i = some unsealed := by
  obtain ⟨update, earlier, hformed, hsplit⟩ := h.split hfresh hrun hevents
  rw [replyTo?, UserCommand.parse?_eq_askZones_iff.mpr rfl] at hformed
  cases hformed
  have htold := tells_answered_zone bank hbank hasked
  have hpart : ¬Untold (.zone i) [answered (.zone bank .inputUnsealed (asked.zoneWord bank))] := by
    rw [untold_zone_iff, htold]
    exact List.cons_ne_nil _ _
  rw [hsplit, zones_after_of_untold _ huntold hpart, htold]
  rfl

/-- When an alarm is wrong about a zone, an answer was the last to tell of it, and has been formed while the
zone was otherwise. -/
theorem LastTold.exists_answers_of_zone (hfresh : Fresh p₀) {i : Fin zoneCount} {unsealed infer : Bool}
    (h : LastTold (.zone i) p₀ actions events p) (hzone : p.zone? (i + 1) = some unsealed)
    (hknown : ((Alarm.new infer).after events).zones.get i = some (!unsealed)) :
    ∃ bank asked answering, Answers p₀ actions (RequestId.zone bank .inputUnsealed).command asked answering ∧
      (bank.zoneAt? (i + 1)).isSome ∧ asked.zone? (i + 1) = some (!unsealed) ∧
        answering.zone? (i + 1) = some unsealed ∧
          Untold (.zone i) (events.drop (answering.frames.length + 1)) := by
  cases h with
  | nowhere huntold =>
    rw [Alarm.zones_after, untold_zone_iff.mp huntold] at hknown
    cases hknown
  | action hactions hbefore hearlier hnow hlater heq hpart huntold =>
    rw [heq, zones_after_of_untold _ huntold hpart] at hknown
    have hthen := (hlater.zone_eq i huntold).symm.trans hzone
    cases hnow with
    | report hreport =>
      -- A report tells how the zone is, and it has stayed so.
      rw [hreport.zone i _ hknown] at hthen
      simp at hthen
    | ask _ _ _ _ _ hsilent _ =>
      rw [hsilent] at hknown
      cases hknown
    | answer index update haction hupdate _ _ hzones hanswer hnow =>
      subst haction hanswer
      obtain ⟨text, asked, hanswers, hformed, wait, hwait⟩ := hfresh.exists_answers hactions hbefore hupdate
      obtain ⟨before, hasked⟩ := (hwait.trans hnow).exists_zone? hthen
      have htells : EventBody.tells? (i + 1) (.status update.carried) = some (!unsealed) := by
        rw [List.filterMap_cons] at hknown
        split at hknown
        next => cases hknown
        next value hvalue =>
          rw [← hknown]
          exact hvalue
      obtain ⟨bank, rfl, hbank, rfl⟩ := eq_askZones_of_tells? hformed hasked htells
      refine ⟨bank, asked, _, hanswers, hbank, hasked, ?_, ?_⟩
      · rw [zone?, ← hzones]
        exact hthen
      · rw [heq, hfresh.drop_frames hearlier]
        exact huntold

variable {settings : PanelSettings} {clock : Nat → Timestamp}

/-- However the operations of a panel are interleaved, every frame that it sends is read back, and an alarm
that takes in all of them knows how a zone is as soon as one of them tells of it, unless an answer was the
last to do so that had been formed while the zone was otherwise. -/
theorem zone_known_iff (hclock : ClockInCentury clock)
    (h : (new settings clock).performAll? actions = some p) (infer : Bool) :
    ∃ events, p.frames.mapM Event.ofLine = .ok events ∧
      ∀ (i : Fin zoneCount) (unsealed : Bool), p.zone? (i + 1) = some unsealed →
        (((Alarm.new infer).after events).zones.get i = none ↔ Untold (.zone i) events) ∧
        (((Alarm.new infer).after events).zones.get i = some (!unsealed) ↔
          ∃ bank asked answering,
            Answers (new settings clock) actions (RequestId.zone bank .inputUnsealed).command asked answering ∧
              (bank.zoneAt? (i + 1)).isSome ∧ asked.zone? (i + 1) = some (!unsealed) ∧
                answering.zone? (i + 1) = some unsealed ∧
                  Untold (.zone i) (events.drop (answering.frames.length + 1))) := by
  have hfresh := fresh_new settings hclock
  obtain ⟨events, hall⟩ := exists_tells_of_performAll? hfresh.clock hfresh.length_le h
  have hevents : p.Sent events := hall.sent hfresh.sent
  refine ⟨events, hevents, fun i unsealed hzone => ⟨?_, fun hknown => ?_, ?_⟩⟩
  · rw [Alarm.zones_after, List.getLast?_eq_none_iff, untold_zone_iff]
  · obtain ⟨told, htold, hlast⟩ := exists_lastTold (.zone i) hfresh.clock hfresh.length_le h
    obtain rfl : told = events := (htold.sent hfresh.sent).unique hevents
    exact hlast.exists_answers_of_zone hfresh hzone hknown
  · rintro ⟨bank, asked, answering, hanswers, hbank, hasked, -, huntold⟩
    exact hanswers.zones_after hfresh h hevents hbank hasked huntold infer

/-- A zone is unsealed while the answer that calls it sealed is under way, and the answer comes last. When
nothing is left to be sent or to happen, the alarm has been told of the zone and takes it for sealed. -/
theorem zone_sealed_by_late_answer :
    let p₀ := new .default fun _ => ⟨⟨2024, 1, 1, by decide⟩, 0, 0, 0, by decide⟩
    ∃ p events, p₀.performAll? [.accept "S00", .setZone 1 true, .sendReply 0] = some p ∧
      p.replies = [] ∧ p.delayed = [] ∧ p.activities = [] ∧ p.zone? 1 = some true ∧
        p.frames.mapM Event.ofLine = .ok events ∧
          ∀ infer, ((Alarm.new infer).after events).zone? 1 = some (some false) := by
  intro p₀
  have hrun : (p₀.performAll? [.accept "S00", .setZone 1 true, .sendReply 0]).any fun p =>
      p.replies = [] ∧ p.delayed = [] ∧ p.activities = [] ∧ p.zone? 1 = some true ∧
        (p.frames.mapM Event.ofLine).toOption.any fun events =>
          ∀ infer, ((Alarm.new infer).after events).zone? 1 = some (some false) := by decide +kernel
  obtain ⟨p, hp, hrest⟩ := (Option.any_eq_true _ _).mp hrun
  obtain ⟨hreplies, hdelayed, hactivities, hzone, htold⟩ := of_decide_eq_true hrest
  obtain ⟨events, hevents, hknown⟩ := (Option.any_eq_true _ _).mp htold
  exact ⟨p, events, hp, hreplies, hdelayed, hactivities, hzone, toOption_eq_some_iff.mp hevents,
    of_decide_eq_true hknown⟩

/-- The answer that an alarm has heard last of the first zone, while the second zone is told by its report. -/
theorem zone_known_iff_late :
    let p₀ := new .default fun _ => ⟨⟨2024, 1, 1, by decide⟩, 0, 0, 0, by decide⟩
    let actions := [.accept "S00", .setZone 1 true, .sendReply 0, .setZone 2 true]
    ∃ p events, p₀.performAll? actions = some p ∧ p.frames.mapM Event.ofLine = .ok events ∧
      p.zone? 1 = some true ∧ p.zone? 2 = some true ∧
        ¬Untold (.zone ⟨1, by decide⟩) events ∧
          ∃ bank asked answering, Answers p₀ actions (RequestId.zone bank .inputUnsealed).command asked answering ∧
            asked.zone? 1 = some false ∧ answering.zone? 1 = some true := by
  intro p₀ actions
  have hrun : (p₀.performAll? actions).any fun p => p.zone? 1 = some true ∧ p.zone? 2 = some true ∧
      (p.frames.mapM Event.ofLine).toOption.any fun events =>
        ((Alarm.new false).after events).zones.get ⟨0, by decide⟩ = some false ∧
          ((Alarm.new false).after events).zones.get ⟨1, by decide⟩ = some true := by decide +kernel
  obtain ⟨p, hp, hrest⟩ := (Option.any_eq_true _ _).mp hrun
  obtain ⟨hfirst, hsecond, htold⟩ := of_decide_eq_true hrest
  obtain ⟨events, hevents, hknown⟩ := (Option.any_eq_true _ _).mp htold
  obtain ⟨hsealed, hunsealed⟩ := of_decide_eq_true hknown
  obtain ⟨events', hsent, hzones⟩ := zone_known_iff (fun _ => by decide) hp false
  obtain rfl : events' = events := Sent.unique hsent (toOption_eq_some_iff.mp hevents)
  obtain ⟨-, hlate⟩ := hzones ⟨0, by decide⟩ true hfirst
  obtain ⟨htold, -⟩ := hzones ⟨1, by decide⟩ true hsecond
  obtain ⟨bank, asked, answering, hanswers, -, hasked, hanswering, -⟩ := hlate.mp hsealed
  refine ⟨p, events', hp, hsent, hfirst, hsecond, fun huntold => ?_, bank, asked, answering, hanswers, hasked,
    hanswering⟩
  rw [htold.mpr huntold] at hunsealed
  cases hunsealed

/-! ## The state -/

/-- An answer with a sign is the arming status. -/
theorem eq_askArming_of_sign? (hformed : asked.replyTo? text = some update)
    (hsign : (answered update).body.sign? ≠ none) :
    text = RequestId.arming.command ∧ update = .arming (armingStatus asked.state) := by
  have hcommand : RequestId.arming.command = "S14" := by decide
  unfold replyTo? at hformed
  split at hformed
  next =>
    cases hformed
    exact absurd rfl hsign
  next hask =>
    cases hformed
    exact ⟨(UserCommand.parse?_eq_askArming_iff.mp hask).trans hcommand.symm, rfl⟩
  next =>
    cases hformed
    exact absurd rfl hsign
  next =>
    cases hformed
    exact absurd rfl hsign
  next => cases hformed

/-- An alarm that does not infer its state takes every panel for disarmed that is neither armed nor in the
exit delay. -/
theorem state_handle_answered (state : PanelState) {a : Alarm} (hinfer : a.inferArming = false) :
    (a.handle (answered (.arming (armingStatus state)))).1.state = .disarmed ↔
      state ≠ .exitDelay ∧ state ≠ .armed := by
  rw [Lockstep.handle_answered_arming, Alarm.handleArming_armingStatus]
  cases state <;> simp [hinfer]

/-- When an arming status is the last to tell of the state, an alarm that does not infer its state is
disarmed, unless the panel was armed or in the exit delay when it was asked. -/
theorem Answers.state_after (hfresh : Fresh p₀)
    (h : Answers p₀ actions RequestId.arming.command asked answering)
    (hrun : p₀.performAll? actions = some p) (hevents : p.Sent events)
    (hasked : asked.state ≠ .exitDelay ∧ asked.state ≠ .armed)
    (huntold : Untold .state (events.drop (answering.frames.length + 1))) :
    ((Alarm.new false).after events).state = .disarmed := by
  obtain ⟨update, earlier, hformed, hsplit⟩ := h.split hfresh hrun hevents
  have hcommand : RequestId.arming.command = "S14" := by decide
  rw [replyTo?, UserCommand.parse?_eq_askArming_iff.mpr hcommand] at hformed
  cases hformed
  rw [hsplit, Alarm.after_append, Alarm.state_after_of_untold huntold, Alarm.after_append]
  exact (state_handle_answered asked.state (Alarm.inferArming_after earlier _)).mpr hasked

/-- When an alarm takes a panel for disarmed that is in the entry delay or in alarm, an arming status was the
last to tell of the state. -/
theorem LastTold.exists_answers_of_disarmed (hfresh : Fresh p₀) (h : LastTold .state p₀ actions events p)
    (hstate : p.state = .entryDelay ∨ p.state = .tripped)
    (hdisarmed : ((Alarm.new false).after events).state = .disarmed) :
    ∃ asked answering, Answers p₀ actions RequestId.arming.command asked answering ∧
      asked.state ≠ .exitDelay ∧ asked.state ≠ .armed ∧
        Untold .state (events.drop (answering.frames.length + 1)) := by
  cases h with
  | nowhere huntold =>
    rw [Alarm.state_after_of_untold huntold] at hdisarmed
    cases hdisarmed
  | @action before after last r s earlier now later hactions hbefore hearlier hnow hlater heq hpart huntold =>
    rw [heq, Alarm.after_append, Alarm.state_after_of_untold huntold, Alarm.after_append] at hdisarmed
    cases hnow with
    | report hreport =>
      -- A report of either state sets it.
      rw [hlater.state_eq huntold] at hstate
      rw [hreport.state hpart hstate] at hdisarmed
      rcases hstate with hstate | hstate <;> simp [hstate, PanelState.image] at hdisarmed
    | ask _ _ _ _ _ hsilent _ =>
      rw [hsilent] at hpart
      exact absurd (fun _ hevent => absurd hevent List.not_mem_nil) hpart
    | answer index update haction hupdate _ _ _ hanswer _ =>
      subst haction hanswer
      obtain ⟨text, asked, hanswers, hformed, -⟩ := hfresh.exists_answers hactions hbefore hupdate
      have hsign : (answered update).body.sign? ≠ none := fun hnone =>
        hpart (untold_state_iff.mpr (List.filterMap_cons_none hnone))
      obtain ⟨rfl, rfl⟩ := eq_askArming_of_sign? hformed hsign
      have hinfer : ((Alarm.new false).after earlier).inferArming = false := Alarm.inferArming_after earlier _
      obtain ⟨hexit, harmed⟩ := (state_handle_answered asked.state hinfer).mp hdisarmed
      refine ⟨asked, _, hanswers, hexit, harmed, ?_⟩
      rw [heq, hfresh.drop_frames hearlier]
      exact huntold

/-- While a panel is in the entry delay or in alarm, an alarm that takes in all its frames and does not infer
its state takes it for disarmed just when the arming status was the last to tell of the state, and the panel
was neither armed nor in the exit delay when it was asked. -/
theorem alarm_disarmed_iff (hclock : ClockInCentury clock)
    (h : (new settings clock).performAll? actions = some p)
    (hstate : p.state = .entryDelay ∨ p.state = .tripped) :
    ∃ events, p.frames.mapM Event.ofLine = .ok events ∧
      (((Alarm.new false).after events).state = .disarmed ↔
        ∃ asked answering, Answers (new settings clock) actions RequestId.arming.command asked answering ∧
          asked.state ≠ .exitDelay ∧ asked.state ≠ .armed ∧
            Untold .state (events.drop (answering.frames.length + 1))) := by
  have hfresh := fresh_new settings hclock
  obtain ⟨events, hall, hlast⟩ := exists_lastTold .state hfresh.clock hfresh.length_le h
  have hevents : p.Sent events := hall.sent hfresh.sent
  refine ⟨events, hevents, hlast.exists_answers_of_disarmed hfresh hstate, ?_⟩
  rintro ⟨asked, answering, hanswers, hexit, harmed, huntold⟩
  exact hanswers.state_after hfresh h hevents ⟨hexit, harmed⟩ huntold

/-- A panel is armed and tripped, and then asked how far it is armed: in the entry delay it is taken for
disarmed, although all its frames have come in. -/
theorem entryDelay_hidden_by_answer :
    let p₀ := new .default fun _ => ⟨⟨2024, 1, 1, by decide⟩, 0, 0, 0, by decide⟩
    ∃ p events, p₀.performAll? [.arm .away, .pass 10000, .expire 0, .setZone 3 true, .accept "S14",
        .sendReply 0] = some p ∧
      p.state = .entryDelay ∧ p.frames.mapM Event.ofLine = .ok events ∧
        ((Alarm.new false).after events).state = .disarmed := by
  intro p₀
  have hrun : (p₀.performAll? [.arm .away, .pass 10000, .expire 0, .setZone 3 true, .accept "S14",
      .sendReply 0]).any fun p => p.state = .entryDelay ∧
        (p.frames.mapM Event.ofLine).toOption.any fun events =>
          ((Alarm.new false).after events).state = .disarmed := by decide +kernel
  obtain ⟨p, hp, hrest⟩ := (Option.any_eq_true _ _).mp hrun
  obtain ⟨hstate, htold⟩ := of_decide_eq_true hrest
  obtain ⟨events, hevents, hknown⟩ := (Option.any_eq_true _ _).mp htold
  exact ⟨p, events, hp, hstate, toOption_eq_some_iff.mp hevents, of_decide_eq_true hknown⟩

/-- The panel has been asked before it was tripped and in the entry delay, and goes into alarm after that: the
report of the alarm is heard last, so no answer hides it. -/
theorem alarm_disarmed_iff_reported :
    let p₀ := new .default fun _ => ⟨⟨2024, 1, 1, by decide⟩, 0, 0, 0, by decide⟩
    let actions := [.arm .away, .pass 10000, .expire 0, .accept "S14", .setZone 3 true, .sendReply 0,
      .accept "S14", .sendReply 0, .pass 10000, .expire 0]
    ∃ p events, p₀.performAll? actions = some p ∧ p.state = .tripped ∧
      p.frames.mapM Event.ofLine = .ok events ∧
        ¬∃ asked answering, Answers p₀ actions RequestId.arming.command asked answering ∧
          asked.state ≠ .exitDelay ∧ asked.state ≠ .armed ∧
            Untold .state (events.drop (answering.frames.length + 1)) := by
  intro p₀ actions
  have hrun : (p₀.performAll? actions).any fun p => p.state = .tripped ∧
      (p.frames.mapM Event.ofLine).toOption.any fun events =>
        ((Alarm.new false).after events).state = .triggered := by decide +kernel
  obtain ⟨p, hp, hrest⟩ := (Option.any_eq_true _ _).mp hrun
  obtain ⟨hstate, htold⟩ := of_decide_eq_true hrest
  obtain ⟨events, hevents, hknown⟩ := (Option.any_eq_true _ _).mp htold
  have hknown : ((Alarm.new false).after events).state = .triggered := of_decide_eq_true hknown
  obtain ⟨events', hsent, hiff⟩ := alarm_disarmed_iff (fun _ => by decide) hp (.inr hstate)
  obtain rfl : events' = events := Sent.unique hsent (toOption_eq_some_iff.mp hevents)
  refine ⟨p, events', hp, hstate, hsent, fun hlate => ?_⟩
  rw [hiff.mpr hlate] at hknown
  cases hknown

end SimulatedPanel

end AlarmPanel
