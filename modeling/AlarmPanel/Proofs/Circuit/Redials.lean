import AlarmPanel.Proofs.Circuit.LoneCaller

/-!
# When dials are made again

After a dial that fails its caller pauses, with the connect lock in its hands, and then dials again. How long it pauses
is a matter of how many dials have failed in a row, whoever made them (`Client.Scheduled`). Time passes neither over
the end of the pause nor before the next dial, so a caller that holds the lock makes its dials to a schedule
(`Client.OnSchedule`), up to the one that connects (`Client.Connected`).
-/

namespace AlarmPanel

namespace Duration

end Duration

namespace ClientSettings

/-- How many milliseconds the pause lasts after a dial that fails when so many have failed before it in a row: as long
as the delay, or thirty years if that is longer. -/
def pause (failures : Nat) (s : ClientSettings) : Nat := (s.backoff.failed failures).delay.pauseMillis

/-- How long the pauses last together after so many dials in a row. -/
def pauses (s : ClientSettings) (first : Nat) : Nat → Nat
  | 0 => 0
  | count + 1 => s.pauses first count + s.pause (first + count)

end ClientSettings

namespace Client

variable {settings : ClientSettings} {handlers : Handlers} {link : Link} {c d start : Client} {strand : Strand}
  {action : ClientAction} {history : List ClientAction} {more : List Effect} {task : Nat}

/-! ## Pauses -/

/-- Whoever pauses does so after the last dial, which has failed, and for as long as so many dials that have failed in a
row call for. -/
structure Scheduled (settings : ClientSettings) (c : Client) : Prop where
  orderly : Orderly c.connectLock fun strand => c.connectAt strand
  backoff : c.backoff = settings.backoff.after c.attempts
  pausing : ∀ strand wake, c.connectAt strand = some (.pausing wake) → ∃ finish outcome failures,
    c.dialLog.getLast? = some ⟨finish, .dialed outcome⟩ ∧ outcome ≠ .connected ∧
      c.failuresInRow = failures + 1 ∧ wake = finish + settings.pause failures ∧ c.now ≤ wake

theorem Scheduled.backoff_eq (hc : Scheduled settings c) : c.backoff = settings.backoff.failed c.failuresInRow :=
  hc.backoff.trans (Backoff.after_eq_failed rfl c.attempts)

/-- A pause that begins now. -/
theorem Scheduled.wakeTime_eq (hc : Scheduled settings c) :
    c.wakeTime c.backoff.delay = c.now + settings.pause c.failuresInRow := by
  rw [wakeTime, hc.backoff_eq]
  rfl

theorem dialLog_of_no_dial (h : c.perform? action = some d) (hmore : d.effects = c.effects ++ more)
    (hnone : more.filter Effect.isDial = []) : d.dialLog = c.dialLog := by
  rw [dialLog_perform? h hmore, hnone, List.map_nil, List.append_nil]

/-- A dial that has been begun, here or before, adds its own attempt only. -/
theorem filterMap_attempt?_dial {here : ConnectPlace} {begun : List Effect} (outcome : DialOutcome)
    (hdials : here = .dialing ∧ begun = [] ∨ here = .checking ∧ c.closed = false ∧ begun = [.dialing strand]) :
    (begun ++ [Effect.dialed outcome]).filterMap Effect.attempt? =
      [Effect.dialed outcome].filterMap Effect.attempt? := by
  rcases hdials with ⟨-, rfl⟩ | ⟨-, -, rfl⟩ <;> rfl

theorem attempt?_of_ne {outcome : DialOutcome} (h : outcome ≠ .connected) :
    [Effect.dialed outcome].filterMap Effect.attempt? = [.fails] := by
  cases outcome with
  | connected => exact absurd rfl h
  | refused | unanswered => rfl

theorem getLast?_dialLog {effects : List Effect} {effect : Effect} (h : c.perform? action = some d)
    (hmore : d.effects = c.effects ++ (effects ++ [effect])) (hdial : effect.isDial = true) :
    d.dialLog.getLast? = some ⟨c.now, effect⟩ := by
  have hlast : [effect].filter Effect.isDial = [effect] := List.filter_eq_self.mpr (by simpa using hdial)
  rw [dialLog_perform? h hmore, List.filter_append, hlast, List.map_append, ← List.append_assoc]
  exact List.getLast?_concat

/-- Whoever pauses after an action tried to bring the link up before it. -/
theorem exists_place_of_pausing {wake : Nat} (h : c.perform? action = some d)
    (hwake : d.connectAt strand = some (.pausing wake)) :
    ∃ here, c.connectAt strand = some here ∧ here.tries = true := by
  rcases connectAt_perform?_cases h hwake with hsame | hasks | ⟨_, _, here, _, -, -, hhere, hmove⟩
  · exact ⟨_, hsame, rfl⟩
  · cases hasks
  · cases hmove with
    | fail hdials => rcases hdials with ⟨rfl, -⟩ | ⟨rfl, -⟩ <;> exact ⟨_, hhere, rfl⟩

theorem Scheduled.perform? (hc : Scheduled settings c) (h : c.perform? action = some d) : Scheduled settings d := by
  refine ⟨orderly_perform? h hc.orderly, backoff_perform? h hc.backoff, fun strand wake hwake => ?_⟩
  obtain ⟨more, hmore⟩ := exists_effects_of_perform? h
  obtain ⟨here, hplace, htries⟩ := exists_place_of_pausing h hwake
  rcases tries_perform?_cases hc.orderly h hmore hplace htries with
    ⟨turn, next, rfl, hmove, hnext⟩ | ⟨hnone, hsame | hgone | hgone⟩
  · -- Its own step leads to a pause by a dial that fails.
    have hnow : d.now = c.now := now_go? h
    cases hmove with
    | @fail _ begun outcome hdials hfails =>
      have hpause : wake = c.now + settings.pause c.failuresInRow := by
        rw [← hc.wakeTime_eq]
        exact ConnectPlace.pausing.inj (Option.some.inj (hwake.symm.trans hnext))
      have hattempt := (filterMap_attempt?_dial outcome hdials).trans (attempt?_of_ne hfails)
      refine ⟨c.now, outcome, c.failuresInRow, getLast?_dialLog h hmore rfl, hfails,
        failuresInRow_of_fails hmore hattempt, hpause, ?_⟩
      rw [hnow, hpause]
      exact Nat.le_add_right _ _
    | _ => cases hwake.symm.trans hnext
  · -- It has paused before, and there has been no dial since.
    obtain rfl := Option.some.inj (hwake.symm.trans hsame)
    obtain ⟨finish, outcome, failures, hlast, hfails, hrow, hpause, hnow⟩ := hc.pausing strand wake hplace
    refine ⟨finish, outcome, failures, (dialLog_of_no_dial h hmore hnone).symm ▸ hlast, hfails,
      (failuresInRow_of_no_dial hmore hnone).trans hrow, hpause, ?_⟩
    rcases now_perform?_cases h with hstill | ⟨millis, rfl, -⟩
    · rwa [hstill]
    · exact now_le_of_pausing h hplace
  · cases hwake.symm.trans hgone
  · cases hwake.symm.trans hgone

/-- The dials that a caller makes one after the other and that fail: how many they are, and when the next one is due.
The first is due at `time`, when `first` dials have failed in a row, and each further one when the pause after the
failure of the last one is over. Where dials do not suspend they take no time. -/
inductive Redials (settings : ClientSettings) (caller : Strand) (suspends : Bool) (first time : Nat) :
    List LogEntry → Nat → Nat → Prop
  | nothing : Redials settings caller suspends first time [] 0 time
  | again {dials : List LogEntry} {count due finish : Nat} {outcome : DialOutcome}
      (hdials : Redials settings caller suspends first time dials count due) (hfails : outcome ≠ .connected)
      (hfinish : due ≤ finish) (hprompt : suspends = false → finish = due) :
      Redials settings caller suspends first time
        (dials ++ [⟨due, .dialing caller⟩, ⟨finish, .dialed outcome⟩]) (count + 1)
          (finish + settings.pause (first + count))

/-- If dials take no time, a dial is due when the pauses before it are over. -/
theorem Redials.due_eq {caller : Strand} {first time count due : Nat} {dials : List LogEntry}
    (h : Redials settings caller false first time dials count due) : due = time + settings.pauses first count := by
  induction h with
  | nothing => rfl
  | again _ _ _ hprompt ih => rw [hprompt rfl, ih, ClientSettings.pauses, Nat.add_assoc]

/-- So many dials as are counted have begun. -/
theorem Redials.countP_eq {caller : Strand} {suspends : Bool} {first time count due : Nat} {dials : List LogEntry}
    (h : Redials settings caller suspends first time dials count due) :
    dials.countP LogEntry.beginsDial = count := by
  induction h with
  | nothing => rfl
  | again _ _ _ _ ih =>
    rw [List.countP_append, ih]
    rfl

/-- Where a caller stands that has made some dials to schedule, and what is on record: the next dial is due, or it has
begun, or the pause before it is not over. -/
inductive Stands (strand : Strand) (record : List LogEntry) (due : Nat) (c : Client) : Prop
  | checking (hplace : c.connectAt strand = some .checking) (hnow : c.now = due) (hlog : c.dialLog = record)
  | dialing (hplace : c.connectAt strand = some .dialing) (hnow : due ≤ c.now)
      (hlog : c.dialLog = record ++ [⟨due, .dialing strand⟩]) (hsuspends : c.link.dialsSuspend = true)
  | pausing (hplace : c.connectAt strand = some (.pausing due)) (hnow : c.now ≤ due) (hlog : c.dialLog = record)

/-- The caller has made these dials since it was about to look at the link in `start`, holding the lock all the time. -/
structure OnSchedule (settings : ClientSettings) (strand : Strand) (start : Client) (dials : List LogEntry)
    (count due : Nat) (c : Client) : Prop where
  scheduled : Scheduled settings c
  suspends : c.link.dialsSuspend = start.link.dialsSuspend
  redials : Redials settings strand start.link.dialsSuspend start.failuresInRow start.now dials count due
  failures : c.failuresInRow = start.failuresInRow + count
  stands : Stands strand (start.dialLog ++ dials) due c

/-- The caller has made these dials, and the next one as well, which has connected. It holds the lock still, to make
that known, and no time has passed. -/
structure Connected (strand : Strand) (start : Client) (dials : List LogEntry) (count due : Nat) (c : Client) :
    Prop where
  place : c.connectAt strand = some .announcing
  failures : c.failuresInRow = 0
  dialLog_eq : c.dialLog = start.dialLog ++ dials ++ [⟨due, .dialing strand⟩, ⟨c.now, .dialed .connected⟩]
  dials_eq : c.dials = start.dials + count + 1
  prompt : start.link.dialsSuspend = false → c.now = due

theorem Stands.exists_place {record : List LogEntry} {due : Nat} (h : Stands strand record due c) :
    ∃ here, c.connectAt strand = some here ∧ here.tries = true := by
  cases h with
  | checking hplace | dialing hplace | pausing hplace => exact ⟨_, hplace, rfl⟩

variable {dials : List LogEntry} {count due : Nat}

/-- A dial of the caller, begun now or before, has been due since it began. -/
theorem OnSchedule.dialed {here : ConnectPlace} {begun : List Effect} {outcome : DialOutcome}
    (hc : OnSchedule settings strand start dials count due c) (h : c.perform? action = some d)
    (hmore : d.effects = c.effects ++ (begun ++ [.dialed outcome])) (hplace : c.connectAt strand = some here)
    (hdials : here = .dialing ∧ begun = [] ∨ here = .checking ∧ begun = [.dialing strand]) :
    due ≤ c.now ∧ (start.link.dialsSuspend = false → c.now = due) ∧
      d.dialLog = start.dialLog ++ dials ++ [⟨due, .dialing strand⟩, ⟨c.now, .dialed outcome⟩] := by
  have hlog := dialLog_perform? h hmore
  rcases hdials with ⟨rfl, rfl⟩ | ⟨rfl, rfl⟩
  · cases hc.stands with
    | dialing _ hdue hrecord hslow =>
      refine ⟨hdue, fun hprompt => absurd (hslow.symm.trans (hc.suspends.trans hprompt)) Bool.noConfusion, ?_⟩
      rw [hlog, hrecord, List.append_assoc]
      rfl
    | checking hinside | pausing hinside => cases hplace.symm.trans hinside
  · cases hc.stands with
    | checking _ hdue hrecord =>
      refine ⟨Nat.le_of_eq hdue.symm, fun _ => hdue, ?_⟩
      rw [hlog, hrecord, hdue]
      rfl
    | dialing hinside | pausing hinside => cases hplace.symm.trans hinside

/-- The caller's own step: it dials when that is due, and pauses if the dial fails. -/
theorem OnSchedule.move {turn : Turn} {here : ConnectPlace} {next : Next ConnectPlace (Except Error Unit)}
    (hc : OnSchedule settings strand start dials count due c) (h : c.perform? (.go strand turn) = some d)
    (hmore : d.effects = c.effects ++ more) (hplace : c.connectAt strand = some here)
    (hmove : ConnectMove strand c here more next) (hnext : d.connectAt strand = next.place?)
    (hstays : d.connectAt strand ≠ none) (hsame : d.connections = c.connections) :
    ∃ dials count due, OnSchedule settings strand start dials count due d := by
  have hd := hc.scheduled.perform? h
  have hnow : d.now = c.now := now_go? h
  have hsuspends : d.link.dialsSuspend = start.link.dialsSuspend :=
    (congrArg (fun habits => habits.2.2.1) (habits_perform? h)).trans hc.suspends
  have hlog := dialLog_perform? h hmore
  have hrow (hnone : more.filterMap Effect.attempt? = []) : d.failuresInRow = start.failuresInRow + count := by
    rw [failuresInRow, attempts_append hmore, hnone, List.append_nil]
    exact hc.failures
  cases hmove with
  | find | refuse | announce | signal | die => exact absurd hnext hstays
  | connect => exact absurd hsame ((connections_ne_iff hmore).mpr (List.mem_append_right _ (List.mem_singleton_self _)))
  | ask | enter | hangUp =>
    obtain ⟨_, hinside, htries⟩ := hc.stands.exists_place
    cases hplace.symm.trans hinside
    cases htries
  | dial _ hslow =>
    cases hc.stands with
    | checking _ hdue hrecord =>
      refine ⟨dials, count, due, hd, hsuspends, hc.redials, hrow rfl, .dialing hnext ?_ ?_ ?_⟩
      · rw [hnow, hdue]
      · rw [hlog, hrecord, hdue]
        rfl
      · rw [hsuspends, ← hc.suspends, hslow]
    | dialing hinside | pausing hinside => cases hplace.symm.trans hinside
  | wake hwake =>
    cases hc.stands with
    | pausing hinside hearly hrecord =>
      cases hplace.symm.trans hinside
      refine ⟨dials, count, due, hd, hsuspends, hc.redials, hrow rfl, .checking hnext ?_ ?_⟩
      · rw [hnow]
        exact Nat.le_antisymm hearly hwake
      · rw [hlog, hrecord]
        exact List.append_nil _
    | checking hinside | dialing hinside => cases hplace.symm.trans hinside
  | @fail _ begun outcome hdials hfails =>
    obtain ⟨hdue, hprompt, hrecord⟩ := hc.dialed h hmore hplace (hdials.imp id (And.imp id And.right))
    have hwake : c.wakeTime c.backoff.delay = c.now + settings.pause (start.failuresInRow + count) := by
      rw [hc.scheduled.wakeTime_eq, hc.failures]
    rw [hwake] at hnext
    have hattempt := (filterMap_attempt?_dial outcome hdials).trans (attempt?_of_ne hfails)
    refine ⟨_, count + 1, _, hd, hsuspends, hc.redials.again hfails hdue hprompt, ?_,
      .pausing hnext ?_ (hrecord.trans (List.append_assoc ..))⟩
    · rw [failuresInRow_of_fails hmore hattempt, hc.failures, Nat.add_assoc]
    · rw [hnow]
      exact Nat.le_add_right _ _

/-- What others do does not show, and time does not pass over the next dial. -/
theorem OnSchedule.stay {here : ConnectPlace} (hc : OnSchedule settings strand start dials count due c)
    (h : c.perform? action = some d) (hmore : d.effects = c.effects ++ more) (hnone : more.filter Effect.isDial = [])
    (hplace : c.connectAt strand = some here) (hsame : d.connectAt strand = some here) :
    OnSchedule settings strand start dials count due d := by
  have hlog := dialLog_of_no_dial h hmore hnone
  have hsuspends : d.link.dialsSuspend = c.link.dialsSuspend :=
    congrArg (fun habits => habits.2.2.1) (habits_perform? h)
  refine ⟨hc.scheduled.perform? h, hsuspends.trans hc.suspends, hc.redials,
    (failuresInRow_of_no_dial hmore hnone).trans hc.failures, ?_⟩
  cases hc.stands with
  | checking hinside hdue hrecord =>
    obtain rfl := Option.some.inj (hplace.symm.trans hinside)
    have hholds := hc.scheduled.orderly.holder_of_inside hinside nofun nofun
    exact .checking hsame ((now_eq_of_holder hinside hholds (.inr (.inl rfl)) h).trans hdue) (hlog.trans hrecord)
  | dialing hinside hdue hrecord hslow =>
    obtain rfl := Option.some.inj (hplace.symm.trans hinside)
    exact .dialing hsame (Nat.le_trans hdue (now_le_of_perform? h)) (hlog.trans hrecord) (hsuspends.trans hslow)
  | pausing hinside hearly hrecord =>
    obtain rfl := Option.some.inj (hplace.symm.trans hinside)
    refine .pausing hsame ?_ (hlog.trans hrecord)
    rcases now_perform?_cases h with hstill | ⟨millis, rfl, -⟩
    · rwa [hstill]
    · exact now_le_of_pausing h hinside

/-- After a dial that connects no failure counts any longer. -/
theorem failuresInRow_of_connects (hk : Orderly c.connectLock fun strand => c.connectAt strand)
    (h : c.perform? action = some d) (hconnects : d.connections ≠ c.connections) : d.failuresInRow = 0 := by
  obtain ⟨more, hmore⟩ := exists_effects_of_perform? h
  have hdialed := (connections_ne_iff hmore).mp hconnects
  have hdial : more.filter Effect.isDial ≠ [] := List.ne_nil_of_mem (mem_filter_isDial hdialed)
  obtain ⟨strand, turn, here, next, -, -, hmove, -⟩ := exists_move_of_dial hk h hmore hdial
  obtain ⟨begun, ⟨-, rfl⟩ | ⟨-, rfl⟩, rfl, -⟩ := hmove.connects hdialed
  · exact failuresInRow_of_succeeds hmore rfl
  · exact failuresInRow_of_succeeds hmore rfl

/-- A dial of the caller that connects is made when it is due. -/
theorem OnSchedule.connect (hc : OnSchedule settings strand start dials count due c)
    (h : c.perform? action = some d) (hconnects : d.connections ≠ c.connections) :
    d.now = c.now ∧ Connected strand start dials count due d := by
  obtain ⟨more, hmore⟩ := exists_effects_of_perform? h
  obtain ⟨here, hplace, htries⟩ := hc.stands.exists_place
  have hdialed := (connections_ne_iff hmore).mp hconnects
  rcases tries_perform?_cases hc.scheduled.orderly h hmore hplace htries with
    ⟨turn, next, rfl, hmove, hnext⟩ | ⟨hnone, -⟩
  · have hnow : d.now = c.now := now_go? h
    obtain ⟨begun, hdials, rfl, rfl⟩ := hmove.connects hdialed
    obtain ⟨-, hdue, hlog⟩ := hc.dialed h hmore hplace hdials
    refine ⟨hnow, hnext, failuresInRow_of_connects hc.scheduled.orderly h hconnects, hnow ▸ hlog, ?_, hnow ▸ hdue⟩
    rw [dials_eq_countP d, hlog, List.countP_append, List.countP_append, hc.redials.countP_eq, dials_eq_countP start]
    rfl
  · have hmem := mem_filter_isDial hdialed
    rw [hnone] at hmem
    cases hmem

/-- Whatever happens while the caller holds the lock, it goes on to schedule, or has connected. -/
theorem OnSchedule.perform? (hc : OnSchedule settings strand start dials count due c)
    (h : c.perform? action = some d) (hholds : d.connectLock.holder = some strand) :
    (∃ dials count due, OnSchedule settings strand start dials count due d) ∨
      Connected strand start dials count due d := by
  by_cases hconnects : d.connections = c.connections
  · obtain ⟨more, hmore⟩ := exists_effects_of_perform? h
    obtain ⟨here, hplace, htries⟩ := hc.stands.exists_place
    obtain ⟨there, hthere, hnot⟩ := (hc.scheduled.perform? h).orderly.place_of_holder hholds
    refine .inl ?_
    rcases tries_perform?_cases hc.scheduled.orderly h hmore hplace htries with
      ⟨turn, next, rfl, hmove, hnext⟩ | ⟨hnone, hsame | hgone | hgone⟩
    · exact hc.move h hmore hplace hmove hnext (by rw [hthere]; exact nofun) hconnects
    · exact ⟨dials, count, due, hc.stay h hmore hnone hplace hsame⟩
    · cases hthere.symm.trans hgone
    · exact absurd (Option.some.inj (hthere.symm.trans hgone)) hnot
  · exact .inr (hc.connect h hconnects).2

/-- A caller that has connected still has when it holds the lock after whatever others do. -/
theorem Connected.perform? (hc : Connected strand start dials count due c)
    (horder : Orderly c.connectLock fun strand => c.connectAt strand) (h : c.perform? action = some d)
    (hholds : d.connectLock.holder = some strand) : Connected strand start dials count due d := by
  obtain ⟨there, hthere, hnot⟩ := (orderly_perform? h horder).place_of_holder hholds
  have hother (turn : Turn) : action ≠ .go strand turn := by
    rcases (step_of_perform? h).of_announcing horder hc.place with ⟨_, _, -, -, -, hthrough, -⟩ | ⟨hother, -⟩
    · cases hthere.symm.trans hthrough
    · exact hother turn
  obtain ⟨more, hmore⟩ := exists_effects_of_perform? h
  have hlock := horder.holder_of_inside hc.place nofun nofun
  obtain ⟨hnone, hsame | hgone | hgone⟩ := others_perform? horder h hmore hlock hother
  · have hlog := dialLog_of_no_dial h hmore hnone
    have hnow : d.now = c.now := now_eq_of_holder hc.place hlock (.inr (.inr rfl)) h
    refine ⟨hsame.trans hc.place, (failuresInRow_of_no_dial hmore hnone).trans hc.failures, ?_, ?_, hnow ▸ hc.prompt⟩
    · rw [hlog, hnow, hc.dialLog_eq]
    · rw [dials_eq_countP, hlog, ← dials_eq_countP, hc.dials_eq]
  · cases hthere.symm.trans hgone
  · exact absurd (Option.some.inj (hthere.symm.trans hgone)) hnot

/-! ## Histories -/

/-- A caller that is about to look at the link has made no dial yet. -/
theorem Scheduled.onSchedule (hc : Scheduled settings c) (hplace : c.connectAt strand = some .checking) :
    OnSchedule settings strand c [] 0 c.now c :=
  ⟨hc, rfl, .nothing, rfl, .checking hplace rfl (List.append_nil _).symm⟩

/-- What holds of a caller for as long as it holds the lock. -/
theorem holdsUntil_induction {P : Client → Prop} (h : HoldsUntil strand c d) (hc : P c)
    (hstep : ∀ action c d, P c → c.perform? action = some d → d.connectLock.holder = some strand → P d) : P d := by
  obtain ⟨history, h, hholds⟩ := h
  induction history generalizing c with
  | nil =>
    cases h
    exact hc
  | cons action later ih =>
    obtain ⟨e, he : c.perform? action = some e, hd⟩ := Option.bind_eq_some_iff.mp h
    rw [holdsThrough, he, Option.any_some, Bool.and_eq_true] at hholds
    have hnext : e.connectLock.holder = some strand := by
      cases later with
      | nil => exact of_decide_eq_true hholds.2
      | cons => exact of_decide_eq_true ((Bool.and_eq_true _ _).mp hholds.2).1
    exact ih (hstep action c e hc he hnext) hd hholds.2

theorem Scheduled.holdsUntil (hc : Scheduled settings c) (hplace : c.connectAt strand = some .checking)
    (h : HoldsUntil strand c d) :
    ∃ dials count due, Redials settings strand c.link.dialsSuspend c.failuresInRow c.now dials count due ∧
      (OnSchedule settings strand c dials count due d ∨ Connected strand c dials count due d) := by
  refine (holdsUntil_induction (P := fun d => Scheduled settings d ∧ ∃ dials count due,
    Redials settings strand c.link.dialsSuspend c.failuresInRow c.now dials count due ∧
      (OnSchedule settings strand c dials count due d ∨ Connected strand c dials count due d)) h
    ⟨hc, [], 0, c.now, .nothing, .inl (hc.onSchedule hplace)⟩ ?_).2
  rintro action d e ⟨hd, dials, count, due, hredials, honTime | hconnected⟩ he hholds
  · refine ⟨hd.perform? he, ?_⟩
    rcases honTime.perform? he hholds with ⟨dials, count, due, hgoesOn⟩ | hconnects
    · exact ⟨dials, count, due, hgoesOn.redials, .inl hgoesOn⟩
    · exact ⟨dials, count, due, hredials, .inr hconnects⟩
  · exact ⟨hd.perform? he, dials, count, due, hredials, .inr (hconnected.perform? hd.orderly he hholds)⟩

/-- A caller that is alone is through after all the dials that are to be refused and one more, when the pauses between
them have gone by. -/
theorem Alone.exists_answer (hc : Scheduled settings c) (halone : Alone task .checking c) :
    ∃ later e, c.performAll? later = some e ∧ e.answer? task = some .done ∧
      e.dials = c.dials + c.link.refusals + 1 ∧
        e.now = c.now + settings.pauses c.failuresInRow c.link.refusals := by
  have hplace : c.connectAt ⟨task, 0⟩ = some .checking := (connectAt_of_task halone.task_eq).trans rfl
  obtain ⟨d, hd, hends, hnone, hrow⟩ := halone.refusals
  have hlooks : d.connectAt ⟨task, 0⟩ = some .checking := (connectAt_of_task hends.task_eq).trans rfl
  obtain ⟨e, he, hmakes, hconnections⟩ := hends.connected hnone
  obtain ⟨dials, count, due, hredials, hd' | hconnected⟩ := hc.holdsUntil hplace hd
  · obtain rfl : count = c.link.refusals := Nat.add_left_cancel (hd'.failures.symm.trans hrow)
    obtain ⟨-, hconnected⟩ := hd'.connect he (by omega)
    obtain ⟨f, hf, hanswer, hmore⟩ := exists_answer_of_announcing hmakes
    obtain ⟨later, hlater, -⟩ := hd
    have hlast : d.performAll? [.go ⟨task, 0⟩ .own, .go ⟨task, 0⟩ .own] = some f := by simp [performAll?, he, hf]
    refine ⟨_, f, performAll?_trans hlater hlast, hanswer, ?_, ?_⟩
    · rw [dials_eq_countP, dialLog_of_no_dial hf hmore rfl, ← dials_eq_countP, hconnected.dials_eq]
    · rw [halone.prompt] at hredials
      rw [now_go? hf, hconnected.prompt halone.prompt, hredials.due_eq]
  · cases hlooks.symm.trans hconnected.place

end Client

end AlarmPanel
