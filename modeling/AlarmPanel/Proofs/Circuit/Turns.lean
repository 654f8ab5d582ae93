import AlarmPanel.Proofs.Circuit.Places
import AlarmPanel.Proofs.Client.Chronicle

/-!
# The turns of those who see to the link

A task may see to the link for many ends, and goes on in its own way when it is through. What shows of it on the
link and on the chronicle is the same for all of them: the step of a strand that sees to the link is a step of
connecting, and it comes to stand where that step leads (`Client.exists_goesOn_of_go?`). Only the receive task may do
more in a step in which it makes the link known, so such steps are left out here.
-/

namespace AlarmPanel

theorem SendPlace.eq_of_connectPlace? {send : SendPlace} {here : ConnectPlace} (h : send.connectPlace? = some here) :
    send = .connecting here := by
  cases send with
  | connecting place => rw [Option.some.inj h]
  | asking | queued | writing => cases h

namespace Client

variable {c d e : Client} {strand : Strand} {turn : Turn} {here : ConnectPlace} {was now : Task}

/-- The client `d` comes after a step of connecting: its strand has gone on from there, and nothing else shows on the
link or on the chronicle. -/
structure GoesOn (strand : Strand) (after : Client × Next ConnectPlace (Except Error Unit)) (d : Client) : Prop where
  chronicle_eq : d.chronicle = after.1.chronicle
  link_eq : d.link = after.1.link
  connectAt_eq : d.connectAt strand = after.2.place?
  died : after.2 = .dies → ∃ role, d.tasks[strand.task]? = some (.over role .died)

variable {next : Next ConnectPlace (Except Error Unit)}

theorem GoesOn.effects_eq {after : Client × Next ConnectPlace (Except Error Unit)} (h : GoesOn strand after d) :
    d.effects = after.1.effects :=
  congrArg (fun log => (log.map LogEntry.effect).reverse) (congrArg Chronicle.log h.chronicle_eq)

theorem goesOn_setTask (hwas : e.tasks[strand.task]? = some was) (hplace : now.connectAt strand.branch = next.place?)
    (hlives : next ≠ .dies) : GoesOn strand (e, next) (e.setTask strand.task now) where
  chronicle_eq := rfl
  link_eq := rfl
  connectAt_eq := (connectAt_of_task (List.getElem?_set_self (List.getElem?_eq_some_iff.mp hwas).1)).trans hplace
  died hdies := absurd hdies hlives

theorem goesOn_finish {role : Role} {ending : Ending} (hwas : e.tasks[strand.task]? = some was)
    (hplace : next.place? = none) (hending : next = .dies → ending = .died) :
    GoesOn strand (e, next) (e.finish strand.task role ending) := by
  have hnow : (e.finish strand.task role ending).tasks[strand.task]? = some (.over role ending) :=
    List.getElem?_set_self (List.getElem?_eq_some_iff.mp hwas).1
  exact ⟨rfl, rfl, (connectAt_of_task hnow).trans hplace.symm, fun hdies => ⟨role, hending hdies ▸ hnow⟩⟩

/-- A strand that is about to send a line sees to the link first. -/
theorem connectStep?_of_sendStep? {line : String} {after : Next SendPlace (Except Error Unit)}
    (h : c.sendStep? strand turn line (.connecting here) = some (e, after)) :
    ∃ next, c.connectStep? strand turn here = some (e, next) ∧
      after.place?.bind SendPlace.connectPlace? = next.place? ∧ (next = .dies ↔ after = .dies) := by
  unfold sendStep? at h
  obtain ⟨⟨e', next⟩, hstep, hafter⟩ := Option.map_eq_some_iff.mp h
  refine ⟨next, ?_⟩
  rcases next with place | (_ | ⟨⟩) | _ <;> cases hafter
  · exact ⟨hstep, rfl, ⟨nofun, nofun⟩⟩
  · exact ⟨hstep, rfl, ⟨nofun, nofun⟩⟩
  · exact ⟨hstep, rfl, ⟨nofun, nofun⟩⟩
  · exact ⟨hstep, rfl, ⟨fun _ => rfl, fun _ => rfl⟩⟩

theorem connectStep?_of_updateStep? {branches : Branches} {after : Next Branches (Except Error Unit)}
    (hbranch : branches[strand.branch]? = some (some (.connecting here)))
    (h : c.updateStep? strand turn branches = some (e, after)) :
    ∃ next, c.connectStep? strand turn here = some (e, next) ∧
      (after.place?.bind fun rest => rest.connects strand.branch) = next.place? ∧ (next = .dies ↔ after = .dies) := by
  have hlt : strand.branch < branches.length := (List.getElem?_eq_some_iff.mp hbranch).1
  have hset (place : Option SendPlace) :
      Branches.connects (branches.set strand.branch place) strand.branch = place.bind SendPlace.connectPlace? := by
    rw [Branches.connects_set branches hlt, Function.update_self]
  unfold updateStep? at h
  rw [hbranch] at h
  obtain ⟨⟨e', send⟩, hsend, hafter⟩ := Option.map_eq_some_iff.mp h
  obtain ⟨next, hstep, hplace, hdies⟩ := connectStep?_of_sendStep? hsend
  rcases send with place | (_ | ⟨⟩) | _
  · cases hafter
    exact ⟨next, hstep, (hset (some place)).trans hplace, hdies.trans ⟨nofun, nofun⟩⟩
  · cases hafter
    exact ⟨next, hstep, hplace, hdies.trans ⟨nofun, nofun⟩⟩
  · -- The branch is through with its line, and the update with it or not.
    dsimp only [afterBranch] at hafter
    split at hafter
    · cases hafter
      exact ⟨next, hstep, hplace, hdies.trans ⟨nofun, nofun⟩⟩
    · cases hafter
      exact ⟨next, hstep, (hset none).trans hplace, hdies.trans ⟨nofun, nofun⟩⟩
  · cases hafter
    exact ⟨next, hstep, hplace, hdies.trans ⟨fun _ => rfl, fun _ => rfl⟩⟩

/-! ## Tasks that see to the link -/

theorem goesOn_of_receiveStep? {place : ReceivePlace} (hwas : c.tasks[strand.task]? = some (.receive place))
    (hat : (Task.receive place).connectAt strand.branch = some here) (hannounces : here ≠ .announcing)
    (h : c.receiveStep? strand turn place = some d) :
    ∃ after, c.connectStep? strand turn here = some after ∧ GoesOn strand after d := by
  unfold receiveStep? at h
  dsimp only at h
  split at h
  next => cases hat
  next place =>
    obtain ⟨hbranch, hplace⟩ := soleBranch_eq_some hat
    obtain rfl := Option.some.inj hplace
    obtain ⟨⟨e, next⟩, hstep, rfl⟩ := Option.map_eq_some_iff.mp h
    have he : e.tasks[strand.task]? = some (.receive (.connecting place)) := by
      rwa [tasks_eq_of_ledger (ledger_connectStep? hstep)]
    refine ⟨_, hstep, ?_⟩
    rcases next with place | (_ | ⟨⟩) | _
    · refine goesOn_setTask he ?_ nofun
      rw [hbranch]
      rfl
    · exact goesOn_finish he rfl nofun
    · -- Who is through finds the link up, and begins to read.
      have hup : e.link.up = true :=
        (connect_of_connectStep? ((connectAt_of_task hwas).trans hat) hstep).2.1 rfl hannounces
      dsimp only [beginRead]
      rw [if_pos hup]
      exact goesOn_setTask he rfl nofun
    · exact goesOn_finish he rfl fun _ => rfl
  next => cases hat
  next => cases h

theorem goesOn_of_refreshStep? {place : RefreshPlace} (hwas : c.tasks[strand.task]? = some (.refresh place))
    (hat : (Task.refresh place).connectAt strand.branch = some here)
    (h : c.refreshStep? strand turn place = some d) :
    ∃ after, c.connectStep? strand turn here = some after ∧ GoesOn strand after d := by
  unfold refreshStep? at h
  dsimp only at h
  split at h
  next => cases hat
  next => cases hat
  next => cases hat
  next branches =>
    obtain ⟨hbranch, hlt⟩ := Branches.getElem?_of_connects hat
    rw [if_neg (Nat.ne_of_lt hlt)] at h
    obtain ⟨⟨e, after⟩, hstep, rfl⟩ := Option.map_eq_some_iff.mp h
    have he : e.tasks[strand.task]? = some (.refresh (.updating branches)) := by
      rwa [tasks_eq_of_ledger (ledger_updateStep? hstep)]
    obtain ⟨next, hconnect, hplace, hdies⟩ := connectStep?_of_updateStep? hbranch hstep
    refine ⟨_, hconnect, ?_⟩
    rcases after with rest | result | _
    · exact goesOn_setTask he hplace (mt hdies.mp nofun)
    · have hwithdraw : (e.withdraw strand.task).tasks[strand.task]? = some (.refresh (.updating branches)) := he
      have hrest : GoesOn strand (e.withdraw strand.task, next) ((e.withdraw strand.task).rest strand.task) :=
        goesOn_setTask hwithdraw hplace (mt hdies.mp nofun)
      exact ⟨hrest.chronicle_eq, hrest.link_eq, hrest.connectAt_eq, hrest.died⟩
    · exact goesOn_finish he hplace.symm fun _ => rfl
  next => cases h

theorem goesOn_of_callStep? {call : Call} {place : CallPlace}
    (hwas : c.tasks[strand.task]? = some (.call call place))
    (hat : (Task.call call place).connectAt strand.branch = some here)
    (h : c.callStep? strand turn call place = some d) :
    ∃ after, c.connectStep? strand turn here = some after ∧ GoesOn strand after d := by
  have hsole {place : Option ConnectPlace} (h : soleBranch place strand.branch = some here)
      (next : Option ConnectPlace) : place = some here ∧ soleBranch next strand.branch = next := by
    obtain ⟨hbranch, hplace⟩ := soleBranch_eq_some h
    rw [hbranch]
    exact ⟨hplace, rfl⟩
  unfold callStep? at h
  dsimp only at h
  split at h
  next => cases hat
  next place =>
    obtain rfl := Option.some.inj (hsole hat none).1
    obtain ⟨⟨e, next⟩, hstep, rfl⟩ := Option.map_eq_some_iff.mp h
    have he : e.tasks[strand.task]? = some (.call call (.connecting place)) := by
      rwa [tasks_eq_of_ledger (ledger_connectStep? hstep)]
    refine ⟨_, hstep, ?_⟩
    rcases next with place | result | _
    · exact goesOn_setTask he (hsole hat _).2 nofun
    · exact goesOn_finish he rfl nofun
    · exact goesOn_finish he rfl fun _ => rfl
  next line send =>
    obtain ⟨⟨e, after⟩, hstep, rfl⟩ := Option.map_eq_some_iff.mp h
    have he : e.tasks[strand.task]? = some (.call call (.sending line send)) := by
      rwa [tasks_eq_of_ledger (ledger_sendStep? hstep)]
    obtain rfl : send = .connecting here := SendPlace.eq_of_connectPlace? (hsole hat none).1
    obtain ⟨next, hconnect, hplace, hdies⟩ := connectStep?_of_sendStep? hstep
    refine ⟨_, hconnect, ?_⟩
    rcases after with place | result | _
    · exact goesOn_setTask he ((hsole hat _).2.trans hplace) (mt hdies.mp nofun)
    · exact goesOn_finish he hplace.symm fun hdied => nomatch hdies.mp hdied
    · exact goesOn_finish he hplace.symm fun _ => rfl
  next slot command patience line send =>
    obtain ⟨⟨e, after⟩, hstep, rfl⟩ := Option.map_eq_some_iff.mp h
    have he : e.tasks[strand.task]? = some (.call call (.requesting slot command patience line send)) := by
      rwa [tasks_eq_of_ledger (ledger_sendStep? hstep)]
    obtain rfl : send = .connecting here := SendPlace.eq_of_connectPlace? (hsole hat none).1
    obtain ⟨next, hconnect, hplace, hdies⟩ := connectStep?_of_sendStep? hstep
    refine ⟨_, hconnect, ?_⟩
    rcases after with place | (_ | ⟨⟩) | _
    · exact goesOn_setTask he ((hsole hat _).2.trans hplace) (mt hdies.mp nofun)
    · exact goesOn_finish he hplace.symm fun hdied => nomatch hdies.mp hdied
    · exact goesOn_setTask he hplace (mt hdies.mp nofun)
    · exact goesOn_finish he hplace.symm fun _ => rfl
  next => cases hat
  next branches =>
    obtain ⟨⟨e, after⟩, hstep, rfl⟩ := Option.map_eq_some_iff.mp h
    have he : e.tasks[strand.task]? = some (.call call (.updating branches)) := by
      rwa [tasks_eq_of_ledger (ledger_updateStep? hstep)]
    obtain ⟨next, hconnect, hplace, hdies⟩ := connectStep?_of_updateStep? (Branches.getElem?_of_connects hat).1 hstep
    refine ⟨_, hconnect, ?_⟩
    rcases after with rest | result | _
    · exact goesOn_setTask he hplace (mt hdies.mp nofun)
    · exact goesOn_finish he hplace.symm fun hdied => nomatch hdies.mp hdied
    · exact goesOn_finish he hplace.symm fun _ => rfl
  next => cases hat
  next => cases hat
  next => cases hat
  next => cases hat
  next => cases hat
  next => cases hat
  next => cases h

/-- The step of a strand that sees to the link is a step of connecting. -/
theorem exists_goesOn_of_go? (hplace : c.connectAt strand = some here) (hannounces : here ≠ .announcing)
    (h : c.go? strand turn = some d) :
    ∃ after, c.connectStep? strand turn here = some after ∧ GoesOn strand after d := by
  obtain ⟨was, hwas, hat⟩ := Option.bind_eq_some_iff.mp hplace
  unfold go? at h
  rw [hwas] at h
  dsimp only at h
  split at h
  next =>
    cases was with
    | receive => exact goesOn_of_receiveStep? hwas hat hannounces h
    | refresh => exact goesOn_of_refreshStep? hwas hat h
    | call => exact goesOn_of_callStep? hwas hat h
    | _ => cases h
  next => cases h

/-- A strand that is queued for the connect lock makes a step only when it holds it. -/
theorem holder_of_queued (hqueued : c.connectAt strand = some .queued) (h : c.go? strand turn = some d) :
    turn = .own ∧ c.connectLock.holder = some strand := by
  obtain ⟨after, hstep, -⟩ := exists_goesOn_of_go? hqueued nofun h
  cases turn with
  | own =>
    rw [connectStep?] at hstep
    exact ⟨rfl, (Option.ite_none_right_eq_some.mp hstep).1⟩
  | link | signal => cases hstep

end Client

end AlarmPanel
