import AlarmPanel.Proofs.Circuit.Basic

/-!
# What actions do to the circuit

Each function of the client that makes a step does to the circuit what `Circuit.Goes` lists: it makes one step
of connecting if its strand sees to the link, and then some of the things that all tasks may do. So every
action is a step of the circuit (`Client.step_of_perform?`), and time passes only while whoever holds the
connect lock has to wait itself.
-/

namespace AlarmPanel

open Relation

namespace Client

variable {c d e : Client} {strand : Strand} {task : Nat} {turn : Turn} {was now : Task} {k : Circuit}

/-! ## Connecting -/

/-- A dial that ends is recorded, and if it connects it is still to be made known. -/
theorem circuit_endDial (c : Client) :
    (∃ outcome wake, outcome ≠ .connected ∧ c.endDial.2 = .place (.pausing wake) ∧
        c.endDial.1.circuit = c.circuit.record [.dialed outcome]) ∨
      (c.endDial.2 = .place .announcing ∧
        c.endDial.1.circuit =
          { c.circuit with up := true, number := c.circuit.number + 1 }.record [.dialed .connected]) := by
  have hcases := Link.dial_cases c.link
  unfold endDial
  rcases hdial : c.link.dial with ⟨link, outcome⟩
  rw [hdial] at hcases
  dsimp only at hcases ⊢
  have hdialed := circuit_note (.dialed outcome) { c with link }
  rcases hcases with ⟨hfails, hup, hnumber⟩ | ⟨rfl, hup, hnumber⟩
  · have hlink : ({ c with link } : Client).circuit = c.circuit := by
      simp only [circuit, hup, hnumber]
      rfl
    rw [hlink] at hdialed
    refine .inl ⟨outcome, c.wakeTime c.backoff.delay, hfails, ?_⟩
    cases outcome with
    | connected => exact absurd rfl hfails
    | refused | unanswered => exact ⟨rfl, hdialed⟩
  · have hlink : ({ c with link } : Client).circuit =
        { c.circuit with up := true, number := c.circuit.number + 1 } := by
      simp only [circuit, hup, hnumber]
      rfl
    rw [hlink] at hdialed
    exact .inr ⟨rfl, hdialed⟩

/-- The end of a dial, by a strand that was in it or has just begun it. -/
theorem connect_endDial {begun : List Effect} (hdials : c.circuit.Dials strand begun)
    (hbegun : d.circuit = c.circuit.record begun) :
    c.circuit.Connect strand (d.endDial.1.circuit.put strand d.endDial.2.place?) ∧
      ∃ next, d.endDial.2 = .place next := by
  rcases circuit_endDial d with ⟨outcome, wake, hfails, hnext, hd⟩ | ⟨hnext, hd⟩
  · rw [hnext, hd, hbegun, Circuit.record_record]
    exact ⟨.fail wake hdials hfails, _, rfl⟩
  · rw [hnext, hd, hbegun]
    have hsucceed := Circuit.Connect.succeed hdials
    refine ⟨?_, _, rfl⟩
    simpa [Circuit.record, Next.place?] using hsucceed

/-- To make the link known shows as the panel's having been heard of, and hands the lock on. -/
theorem circuit_announceLink (c : Client) :
    c.announceLink.circuit =
      { c.circuit with silent := false, lock := c.circuit.lock.release }.record [.notified .connected] := by
  let heard : Client := { c with lastHeard := some c.now }
  have hsilent : heard.circuit.silent = false := decide_eq_false (isStale?_of_heard rfl)
  have heffects : c.announceLink.effects = c.effects ++ [.notified .connected] := effects_note _ heard
  exact congrArg₂ (fun silent effects => { c.circuit with silent, effects, lock := c.circuit.lock.release })
    hsilent heffects

/-- A strand that sees to the link makes one of the steps of connecting. If it is through then, it has found the
link up or has made it known; and whoever makes it known is through. -/
theorem connect_of_connectStep? {place : ConnectPlace}
    {next : Client × Next ConnectPlace (Except Error Unit)} (hplace : c.connectAt strand = some place)
    (h : c.connectStep? strand turn place = some next) :
    c.circuit.Connect strand (next.1.circuit.put strand next.2.place?) ∧
      (next.2 = .result (.ok ()) → place ≠ .announcing → next.1.circuit.up = true) ∧
      (place = .announcing → next.2 = .result (.ok ())) := by
  have hdials {d : Client} {begun : List Effect} (hdials : c.circuit.Dials strand begun)
      (hbegun : d.circuit = c.circuit.record begun) (hannounces : place ≠ .announcing) :
      c.circuit.Connect strand (d.endDial.1.circuit.put strand d.endDial.2.place?) ∧
        (d.endDial.2 = .result (.ok ()) → place ≠ .announcing → d.endDial.1.circuit.up = true) ∧
        (place = .announcing → d.endDial.2 = .result (.ok ())) := by
    obtain ⟨hconnect, goesOn, hnext⟩ := connect_endDial hdials hbegun
    refine ⟨hconnect, fun hok => ?_, fun hplace => absurd hplace hannounces⟩
    cases hnext.symm.trans hok
  unfold connectStep? at h
  split at h
  next => cases h; exact ⟨.ask hplace, by simp, by simp⟩
  next =>
    split at h
    next hholds =>
      split at h
      next hstale =>
        cases h
        rw [circuit_closeLink]
        exact ⟨.hangUp hplace hholds (decide_eq_true hstale), by simp, by simp⟩
      next hstale =>
        cases h
        exact ⟨.enter hplace hholds (by simp [circuit, hstale]), by simp, by simp⟩
      next hstale =>
        cases h
        exact ⟨.leave hplace ConnectPlace.noConfusion ConnectPlace.noConfusion
          fun _ => ⟨hholds, by simp [circuit, hstale]⟩, by simp, by simp⟩
    next => cases h
  next =>
    have hleave : c.circuit.Connect strand (c.releaseConnect.circuit.put strand none) :=
      .leave hplace ConnectPlace.noConfusion ConnectPlace.noConfusion ConnectPlace.noConfusion
    split at h
    next hup => cases h; exact ⟨hleave, fun _ _ => hup, by simp⟩
    next hdown =>
      have hdown : c.circuit.up = false := Bool.eq_false_iff.mpr hdown
      have hbegun := circuit_note (.dialing strand) c
      split at h
      next => cases h; exact ⟨hleave, by simp, by simp⟩
      next =>
        dsimp only at h
        split at h
        next =>
          cases h
          rw [hbegun]
          exact ⟨.dial hplace hdown, by simp, by simp⟩
        next => cases h; exact hdials (.inr ⟨hplace, hdown, rfl⟩) hbegun ConnectPlace.noConfusion
  next => cases h; exact hdials (.inl ⟨hplace, rfl⟩) (Circuit.record_nil _).symm ConnectPlace.noConfusion
  next =>
    cases h
    rw [circuit_announceLink]
    exact ⟨.announce hplace, fun _ hother => absurd rfl hother, fun _ => rfl⟩
  next =>
    split at h
    next => cases h; exact ⟨.wake hplace, by simp, by simp⟩
    next => cases h
  next =>
    split at h
    next =>
      cases h
      exact ⟨.leave hplace ConnectPlace.noConfusion ConnectPlace.noConfusion ConnectPlace.noConfusion, by simp,
        by simp⟩
    next => cases h
  next => cases h

/-! ## Sending and updating -/

theorem asides_endWrite (strand : Strand) (line : String) (c : Client) :
    ReflTransGen Circuit.Aside c.circuit (c.endWrite strand line).1.circuit := by
  unfold endWrite Link.write
  split
  next link written hwrite =>
    split at hwrite
    next =>
      cases hwrite
      split
      next => exact .refl
      next => exact .single .fall
    next =>
      cases hwrite
      have hnote := circuit_note (.wrote strand line) { c with writeLock := c.writeLock.release }
      refine .single ?_
      show c.circuit.Aside (note _ _).circuit
      rw [hnote]
      exact .record fun effect heffect => by rw [List.mem_singleton.mp heffect]; rfl

/-- A strand that does not see to the link is nowhere after its step either. -/
theorem moves_of_asides (hnowhere : c.connectAt strand = none) (hd : d.tasks = c.tasks)
    (hasides : ReflTransGen Circuit.Aside c.circuit d.circuit) :
    c.circuit.Moves strand (d.circuit.put strand none) := by
  rw [Circuit.put_eq_self]
  · exact .aside hnowhere hasides
  · show d.connectAt strand = none
    rwa [connectAt, hd]

theorem moves_endWrite (hnowhere : c.connectAt strand = none) (line : String) :
    c.circuit.Moves strand ((c.endWrite strand line).1.circuit.put strand
      ((c.endWrite strand line).2.place?.bind SendPlace.connectPlace?)) := by
  have hnext : (c.endWrite strand line).2.place? = none := by
    unfold endWrite
    dsimp only
    split <;> rfl
  have htasks : (c.endWrite strand line).1.tasks = c.tasks :=
    tasks_eq_of_ledger (ledger_of_wired (wired_endWrite strand line c))
  rw [hnext]
  exact moves_of_asides hnowhere htasks (asides_endWrite strand line c)

/-- A strand that sends sees to the link first, and makes nothing known of what it does then. It has not made the
link known in a step with which it ends. -/
theorem moves_of_sendStep? {line : String} {place : SendPlace}
    {next : Client × Next SendPlace (Except Error Unit)} (hplace : c.connectAt strand = place.connectPlace?)
    (h : c.sendStep? strand turn line place = some next) :
    c.circuit.Moves strand (next.1.circuit.put strand (next.2.place?.bind SendPlace.connectPlace?)) ∧
      (next.2.place? = none → c.connectAt strand ≠ some .announcing) := by
  unfold sendStep? at h
  split at h
  next here =>
    obtain ⟨⟨d, after⟩, hstep, rfl⟩ := Option.map_eq_some_iff.mp h
    obtain ⟨hconnect, -, hannounces⟩ := connect_of_connectStep? hplace hstep
    have hother (hnext : after ≠ .result (.ok ())) : c.connectAt strand ≠ some .announcing := fun hsame =>
      hnext (hannounces (Option.some.inj (hplace.symm.trans hsame)))
    rcases after with place | (_ | ⟨⟩) | _
    · exact ⟨.connect hconnect, nofun⟩
    · exact ⟨.connect hconnect, fun _ => hother nofun⟩
    · exact ⟨.connect hconnect, nofun⟩
    · exact ⟨.connect hconnect, fun _ => hother nofun⟩
  next => cases h; exact ⟨moves_of_asides hplace rfl .refl, nofun⟩
  next =>
    have hnowhere : c.connectAt strand ≠ some .announcing := by rw [hplace]; exact nofun
    split at h
    next =>
      split at h
      next => cases h; exact ⟨moves_of_asides hplace rfl .refl, nofun⟩
      next => cases h; exact ⟨moves_endWrite hplace line, fun _ => hnowhere⟩
    next => cases h
  next =>
    have hnowhere : c.connectAt strand ≠ some .announcing := by rw [hplace]; exact nofun
    cases h
    exact ⟨moves_endWrite hplace line, fun _ => hnowhere⟩
  next => cases h

/-- A branch of an update does what a strand that sends does, and the other branches stay where they are. -/
theorem moves_of_updateStep? {branches : Branches} {next : Client × Next Branches (Except Error Unit)}
    (hplace : c.connectAt strand = branches.connects strand.branch)
    (h : c.updateStep? strand turn branches = some next) :
    ∃ place, c.circuit.Moves strand (next.1.circuit.put strand place) ∧
      (∀ rest, next.2 = .place rest →
        rest.connects = Function.update branches.connects strand.branch place) ∧
      (next.2.place? = none → place = none ∧ c.connectAt strand ≠ some .announcing) := by
  unfold updateStep? at h
  split at h
  next place hbranch =>
    obtain ⟨⟨d, after⟩, hstep, rfl⟩ := Option.map_eq_some_iff.mp h
    have hlt : strand.branch < branches.length := (List.getElem?_eq_some_iff.mp hbranch).1
    have hsend : c.connectAt strand = place.connectPlace? := by
      rw [hplace, Branches.connects, hbranch]
      rfl
    obtain ⟨hmoves, hends⟩ := moves_of_sendStep? hsend hstep
    refine ⟨after.place?.bind SendPlace.connectPlace?, ?_⟩
    rcases after with place | (_ | ⟨⟩) | _
    · refine ⟨hmoves, fun rest hrest => ?_, by simp [afterBranch, Next.place?]⟩
      cases hrest
      exact Branches.connects_set branches hlt
    · exact ⟨hmoves, by simp [afterBranch], fun _ => ⟨rfl, hends rfl⟩⟩
    · refine ⟨hmoves, fun rest hrest => ?_, fun _ => ⟨rfl, hends rfl⟩⟩
      simp only [afterBranch] at hrest
      split at hrest
      next => cases hrest
      next => cases hrest; exact Branches.connects_set branches hlt
    · exact ⟨hmoves, by simp [afterBranch], fun _ => ⟨rfl, hends rfl⟩⟩
  next => cases h

/-! ## The background tasks -/

/-- A link that is as it was or goes down. -/
theorem asides_link {link : Link} (hnumber : link.number = c.link.number)
    (hfalls : link.up = c.link.up ∨ link.up = false) :
    ReflTransGen Circuit.Aside c.circuit { c with link }.circuit := by
  have heq : ({ c with link } : Client).circuit = { c.circuit with up := link.up } := by
    simp only [circuit, hnumber]
    rfl
  rw [heq]
  rcases hfalls with hup | hdown
  · rw [hup]
    exact .refl
  · rw [hdown]
    exact .single .fall

/-- What a line does shows as the panel's having been heard of, and as reports. -/
theorem asides_receiveLine (bytes : List UInt8) (c : Client) :
    ReflTransGen Circuit.Aside c.circuit (c.receiveLine bytes).circuit ∧
      (c.receiveLine bytes).link = c.link ∧ (c.receiveLine bytes).tasks = c.tasks := by
  unfold receiveLine
  cases eventOfBytes? bytes with
  | none => exact ⟨.refl, rfl, rfl⟩
  | some event =>
    have heffects := effects_receive event c
    have hquiet : ∀ effect ∈ (c.alarm.reportsOf event).flatMap c.handlers.effects,
        effect.aboutLink = false := by
      intro effect heffect
      obtain ⟨report, -, hreport⟩ := List.mem_flatMap.mp heffect
      exact Effect.aboutLink_of_reports (c.handlers.effects_reports report effect hreport)
    obtain ⟨slots, openSlots, log, hreceive⟩ := exists_receive event c
    have hcircuit : (c.receive event).circuit =
        { c.circuit with silent := false }.record ((c.alarm.reportsOf event).flatMap c.handlers.effects) := by
      rw [hreceive] at heffects ⊢
      let heard : Client :=
        { c with
          lastHeard := some c.now, slots, openSlots, alarm := (c.alarm.handle event).1, log }
      have hsilent : heard.circuit.silent = false := decide_eq_false (isStale?_of_heard rfl)
      exact congrArg₂ (fun silent effects => { c.circuit with silent, effects }) hsilent heffects
    refine ⟨?_, ?_, ?_⟩
    · dsimp only
      rw [hcircuit]
      exact (ReflTransGen.single .hear).tail (.record hquiet)
    · dsimp only
      rw [hreceive]
    · dsimp only
      rw [hreceive]

/-- The receive task loses the link that it read from. -/
theorem aside_loseLink {number : Nat} (h : c.tasks[task]? = some (.receive (.reading number)))
    (hgone : c.link.up = true → c.link.number ≠ number) :
    c.circuit.Aside (c.loseLink task).circuit := by
  unfold loseLink
  split
  next => exact aside_finish h rfl
  next =>
    have hnotify : (c.notify .disconnected).tasks[task]? = some (.receive (.reading number)) := h
    have hset : ((c.notify .disconnected).setTask task (.receive .fresh)).circuit =
        (c.circuit.record [.notified .disconnected]).setReceiver task (some .connecting) := by
      have hseat := seat_eq_self hnotify
      rw [notify, circuit_note] at hseat
      rw [circuit_setTask hnotify, notify, circuit_note]
      exact congrArg (Circuit.setReceiver task _) hseat
    rw [hset]
    exact .lose (receiverAt_of_task h) hgone

/-- The receive task begins to read from the link that it has seen to, if that is up. -/
theorem goes_beginRead {here : ConnectPlace} (hconnect : k.Connect strand (c.circuit.put strand none))
    (h : c.tasks[strand.task]? = some (.receive (.connecting here))) (hbranch : strand.branch = 0)
    (hup : c.link.up = true) : k.Goes strand (c.beginRead strand.task).circuit := by
  have hread : (c.beginRead strand.task).circuit =
      (c.circuit.put strand none).setReceiver strand.task (some (.reading c.link.number)) := by
    have hseat := seat_eq_put h none
    rw [Task.connectAt, ← soleBranch_update hbranch, soleBranch_none] at hseat
    rw [beginRead, if_pos hup, circuit_setTask h]
    exact congrArg (Circuit.setReceiver strand.task _) hseat
  rw [hread]
  exact .read hconnect (Circuit.places_put_self ..) (receiverAt_of_task h) hup

/-- And if it is gone again when the receive task has made it known, that is the loss of it. -/
theorem goes_beginRead_of_down (hconnect : k.Connect strand (c.circuit.put strand none))
    (hplace : k.places strand = some .announcing) (hsole : k.Sole strand)
    (h : c.tasks[strand.task]? = some (.receive (.connecting .announcing))) (hbranch : strand.branch = 0)
    (hdown : c.link.up = false) : k.Goes strand (c.beginRead strand.task).circuit := by
  rw [beginRead, if_neg (by rw [hdown]; exact Bool.noConfusion), loseLink]
  split
  next => exact goes_finish (.connect hconnect) (.inr hsole) h rfl
  next =>
    have hnotify : (c.notify .disconnected).tasks[strand.task]? = some (.receive (.connecting .announcing)) := h
    have hset : ((c.notify .disconnected).setTask strand.task (.receive .fresh)).circuit =
        (c.circuit.put strand none).record [.notified .disconnected] := by
      have hput : ((c.notify .disconnected).setTask strand.task (.receive .fresh)).circuit =
          (c.notify .disconnected).circuit.put strand none :=
        circuit_setTask_put hnotify rfl (soleBranch_none.symm.trans (soleBranch_update hbranch _ _))
      rw [hput, notify, circuit_note]
      rfl
    rw [hset]
    exact .miss hplace hconnect (receiverAt_of_task h) hdown

theorem goes_of_receiveStep? {place : ReceivePlace} (hwas : c.tasks[strand.task]? = some (.receive place))
    (hbranch : strand.branch = 0) (h : c.receiveStep? strand turn place = some d) :
    c.circuit.Goes strand d.circuit := by
  have hat : c.connectAt strand = (Task.receive place).connectAt strand.branch := connectAt_of_task hwas
  unfold receiveStep? at h
  dsimp only at h
  split at h
  next =>
    split at h
    next => cases h; exact .aside hat (.single (aside_finish hwas rfl))
    next => cases h; exact .aside hat (.single (aside_begin hwas rfl rfl (soleBranch_cases _)))
  next turn place =>
    obtain ⟨⟨e, next⟩, hstep, rfl⟩ := Option.map_eq_some_iff.mp h
    have hplace : c.connectAt strand = some place := by
      rw [hat, hbranch]
      rfl
    obtain ⟨hconnect, hok, -⟩ := connect_of_connectStep? hplace hstep
    have hsole : c.circuit.Sole strand := sole_of_task hwas hbranch rfl
    have he : e.tasks[strand.task]? = some (.receive (.connecting place)) := by
      rwa [tasks_eq_of_ledger (ledger_connectStep? hstep)]
    rcases next with next | (_ | ⟨⟩) | _
    · exact goes_setTask (.connect hconnect) he rfl (soleBranch_update hbranch _ _)
    · exact goes_finish (.connect hconnect) (.inr hsole) he rfl
    · by_cases hup : e.link.up = true
      · exact goes_beginRead hconnect he hbranch hup
      · -- Only a link that has been made known just now may be gone.
        obtain rfl : place = .announcing := by_contra fun hother => hup (hok rfl hother)
        exact goes_beginRead_of_down hconnect hplace hsole he hbranch (Bool.eq_false_iff.mpr hup)
    · exact goes_finish (.connect hconnect) (.inr hsole) he rfl
  next number =>
    obtain ⟨⟨link, outcome⟩, hread, rfl⟩ := Option.map_eq_some_iff.mp h
    obtain ⟨hnumber, hfalls, hcases⟩ := Link.read?_cases hread
    have hlink := asides_link hnumber hfalls
    rcases hcases with ⟨⟨bytes, rfl⟩, hup, hreads⟩ | ⟨rfl, hgone⟩
    · -- The task goes on to read from the link that it has read from.
      obtain ⟨hline, heq, htasks⟩ := asides_receiveLine bytes { c with link }
      have hsame : (({ c with link }.receiveLine bytes).beginRead strand.task).circuit =
          ({ c with link }.receiveLine bytes).circuit := by
        rw [beginRead, heq, if_pos hup, hreads]
        exact circuit_setTask_self (by rw [htasks]; exact hwas) rfl rfl
      refine .aside hat (hlink.trans ?_)
      dsimp only
      rw [hsame]
      exact hline
    · exact .aside hat (hlink.tail (aside_loseLink hwas hgone))
  next => cases h

/-- All branches of an update begin to see to the link. -/
theorem connects_freshBranches (branch : Nat) :
    freshBranches.connects branch = none ∨ freshBranches.connects branch = some .asking := by
  unfold freshBranches Branches.connects
  rw [List.getElem?_map]
  cases updateCommands[branch]? with
  | none => exact .inl rfl
  | some command => exact .inr rfl

/-- The refresh task rests, and gives up what is left of its update. -/
theorem circuit_rest {place : RefreshPlace} (h : c.tasks[task]? = some (.refresh place)) :
    ((c.withdraw task).rest task).circuit = c.circuit.giveUp task := by
  have hwithdraw : (c.withdraw task).tasks[task]? = some (.refresh place) := h
  have hreceiver : c.circuit.receivers task = none := receiverAt_of_task h
  rw [rest, circuit_setTask hwithdraw, Circuit.giveUp, hreceiver]
  rfl

theorem goes_of_refreshStep? {place : RefreshPlace} (hwas : c.tasks[strand.task]? = some (.refresh place))
    (h : c.refreshStep? strand turn place = some d) : c.circuit.Goes strand d.circuit := by
  have hat : c.connectAt strand = (Task.refresh place).connectAt strand.branch := connectAt_of_task hwas
  unfold refreshStep? at h
  dsimp only at h
  split at h
  next =>
    cases h
    exact .aside hat (asides_setTask hwas rfl rfl)
  next =>
    split at h
    next =>
      split at h
      next => cases h; exact .aside hat (.single (aside_finish hwas rfl))
      next => cases h; exact .aside hat (.single (aside_begin hwas rfl rfl connects_freshBranches))
    next => cases h
  next =>
    split at h
    next => cases h; exact .aside hat (.single (aside_finish hwas rfl))
    next => cases h
  next turn branches =>
    split at h
    next hbeside =>
      have hnowhere : c.connectAt strand = none := by
        rw [hat, hbeside]
        simp [Task.connectAt, Branches.connects]
      split at h
      next => cases h; exact .aside hnowhere (.single (aside_finish hwas rfl))
      next => cases h
    next =>
      obtain ⟨⟨e, next⟩, hstep, rfl⟩ := Option.map_eq_some_iff.mp h
      obtain ⟨place, hmoves, hrest, hends⟩ := moves_of_updateStep? hat hstep
      have he : e.tasks[strand.task]? = some (.refresh (.updating branches)) := by
        rwa [tasks_eq_of_ledger (ledger_updateStep? hstep)]
      rcases next with rest | result | _
      · exact goes_setTask hmoves he rfl (hrest rest rfl)
      · obtain ⟨rfl, hother⟩ := hends rfl
        dsimp only
        rw [circuit_rest he]
        exact hmoves.giveUp (.inl hother)
      · obtain ⟨rfl, hother⟩ := hends rfl
        exact goes_finish hmoves (.inl hother) he rfl
  next => cases h

/-! ## Calls -/

theorem aside_beginSend {call : Call} (h : c.tasks[task]? = some (.call call .fresh))
    (command : Except Error String) : c.circuit.Aside (c.beginSend task call command).circuit := by
  unfold beginSend
  split
  next => exact aside_begin h rfl rfl (soleBranch_cases _)
  next => exact aside_finish h rfl

theorem circuit_shareSlot (code : UInt8) (c : Client) : (c.shareSlot code).1.circuit = c.circuit := by
  unfold shareSlot
  dsimp only
  split
  next => split <;> rfl
  next => rfl

theorem aside_beginAsk {call : Call} (h : c.tasks[task]? = some (.call call .fresh)) (command : String)
    (patience : Duration) : c.circuit.Aside (c.beginAsk task call command patience).circuit := by
  cases hcode : statusCode command with
  | ok code =>
    have hshared : (c.shareSlot code).1.tasks[task]? = some (.call call .fresh) := by
      have htasks : (c.shareSlot code).1.tasks = c.tasks := congrArg Ledger.tasks (ledger_shareSlot code c)
      rwa [htasks]
    rw [beginAsk_of_statusCode task patience c hcode, ← circuit_shareSlot code c]
    exact aside_begin hshared rfl rfl (soleBranch_cases _)
  | error e =>
    simp only [beginAsk, hcode]
    exact aside_finish h rfl

theorem aside_launch {call : Call} (h : c.tasks[task]? = some (.call call .fresh))
    (hstarted : c.started = false) : c.circuit.Aside (c.launch task call).circuit := by
  let begun : Client := { c with started := true }.addTask (.receive .fresh)
  have hlaunched : (begun.addTask (.refresh .fresh)).tasks[task]? = some (.call call .fresh) := by
    have hlt := (List.getElem?_eq_some_iff.mp h).1
    show (c.tasks ++ [_] ++ [_])[task]? = _
    rw [List.append_assoc, List.getElem?_append_left hlt, h]
  have hnone : begun.circuit.receivers begun.tasks.length = none := by
    show begun.receiverAt begun.tasks.length = none
    simp [receiverAt]
  have hset : (c.launch task call).circuit = (begun.addTask (.refresh .fresh)).circuit :=
    circuit_setTask_self hlaunched rfl rfl
  have hadd : (begun.addTask (.refresh .fresh)).circuit = begun.circuit :=
    (circuit_addTask rfl begun).trans (Circuit.setReceiver_eq_self hnone)
  have hbegun : begun.circuit =
      { c.circuit with started := true }.setReceiver c.tasks.length (some .connecting) :=
    circuit_addTask rfl { c with started := true }
  rw [hset, hadd, hbegun]
  exact .launch hstarted

theorem asides_beginCall {call : Call} (h : c.tasks[task]? = some (.call call .fresh)) :
    ReflTransGen Circuit.Aside c.circuit (c.beginCall task call).circuit := by
  cases call with
  | start =>
    simp only [beginCall]
    split
    next => exact .single (aside_finish h rfl)
    next hstarted => exact .single (aside_launch h (Bool.eq_false_iff.mpr hstarted))
  | keepalive =>
    simp only [beginCall]
    split
    next => exact asides_setTask h rfl rfl
    next hstarted => exact .single (aside_launch h (Bool.eq_false_iff.mpr hstarted))
  | connect => exact .single (aside_begin h rfl rfl (soleBranch_cases _))
  | close => exact asides_setTask (c := c.shutDown) h rfl rfl
  | update => exact .single (aside_begin h rfl rfl connects_freshBranches)
  | panelInfo =>
    simp only [beginCall]
    split
    next => exact .single (aside_finish h rfl)
    next => exact .single (aside_beginAsk h ..)
  | ask | refreshAuxOutputs => exact .single (aside_beginAsk h ..)
  | zone => exact .single (aside_finish h rfl)
  | send | armAway | armHome | disarm | panic | setAuxOutput => exact .single (aside_beginSend h _)

theorem asides_abort (task : Nat) (c : Client) :
    ReflTransGen Circuit.Aside c.circuit (c.abort task).circuit := by
  unfold abort
  split
  next state hstate =>
    split
    next => exact .refl
    next => exact .single (aside_finish hstate rfl)
  next => exact .refl

/-- A task that ends another one is where it was, or over itself. -/
theorem tasks_abort (h : c.tasks[task]? = some was) (other : Nat) :
    (c.abort other).tasks[task]? = some was ∨
      (c.abort other).tasks[task]? = some (.over was.role .aborted) := by
  unfold abort
  split
  next state hstate =>
    split
    next => exact .inl h
    next =>
      show (c.tasks.set other _)[task]? = _ ∨ (c.tasks.set other _)[task]? = _
      by_cases hother : other = task
      · subst hother
        obtain rfl : state = was := Option.some.inj (hstate.symm.trans h)
        rw [List.getElem?_set_self (List.getElem?_eq_some_iff.mp h).1]
        exact .inr rfl
      · rw [List.getElem?_set_ne hother]
        exact .inl h
  next => exact .inl h

/-- A call that ends a background task and then goes on, or is over itself. -/
theorem asides_abort_setTask {call : Call} {place : CallPlace} (h : c.tasks[task]? = some (.call call place))
    (other : Nat) (hplaces : (Task.call call place).connectAt = fun _ => none)
    (hnow : now.connectAt = fun _ => none) (hreceiver : now.receiver? = none) :
    ReflTransGen Circuit.Aside c.circuit ((c.abort other).setTask task now).circuit := by
  refine (asides_abort other c).trans ?_
  rcases tasks_abort h other with hwas | hover
  · exact asides_setTask hwas hreceiver (hnow.trans hplaces.symm)
  · exact asides_setTask hover hreceiver hnow

theorem asides_collect {call : Call} (h : c.tasks[task]? = some (.call call .collecting))
    {place : Handles → CallPlace} (hplace : ∀ handles, (Task.call call (place handles)).connectAt = fun _ => none) :
    ReflTransGen Circuit.Aside c.circuit (c.collect task call place).circuit := by
  unfold collect
  split
  next handles _ => exact asides_setTask (c := { c with handles := none }) h rfl (hplace handles)
  next => exact .single (aside_finish h rfl)

theorem goes_of_callStep? {call : Call} {place : CallPlace}
    (hwas : c.tasks[strand.task]? = some (.call call place))
    (hbranch : strand.branch ∈ (Task.call call place).branches)
    (h : c.callStep? strand turn call place = some d) : c.circuit.Goes strand d.circuit := by
  have hat : c.connectAt strand = (Task.call call place).connectAt strand.branch := connectAt_of_task hwas
  unfold callStep? at h
  dsimp only at h
  split at h
  next => cases h; exact .aside hat (asides_beginCall hwas)
  next turn place =>
    have hbranch : strand.branch = 0 := List.mem_singleton.mp hbranch
    obtain ⟨⟨e, next⟩, hstep, rfl⟩ := Option.map_eq_some_iff.mp h
    have hplace : c.connectAt strand = some place := by
      rw [hat, hbranch]
      rfl
    have hmoves := Circuit.Moves.connect (connect_of_connectStep? hplace hstep).1
    have hsole : c.circuit.Sole strand := sole_of_task hwas hbranch rfl
    have he : e.tasks[strand.task]? = some (.call call (.connecting place)) := by
      rwa [tasks_eq_of_ledger (ledger_connectStep? hstep)]
    rcases next with next | result | _
    · exact goes_setTask hmoves he rfl (soleBranch_update hbranch _ _)
    · exact goes_finish hmoves (.inr hsole) he rfl
    · exact goes_finish hmoves (.inr hsole) he rfl
  next turn line place =>
    have hbranch : strand.branch = 0 := List.mem_singleton.mp hbranch
    obtain ⟨⟨e, next⟩, hstep, rfl⟩ := Option.map_eq_some_iff.mp h
    have hplace : c.connectAt strand = place.connectPlace? := by
      rw [hat, hbranch]
      rfl
    obtain ⟨hmoves, hends⟩ := moves_of_sendStep? hplace hstep
    have he : e.tasks[strand.task]? = some (.call call (.sending line place)) := by
      rwa [tasks_eq_of_ledger (ledger_sendStep? hstep)]
    rcases next with next | result | _
    · exact goes_setTask hmoves he rfl (soleBranch_update hbranch _ _)
    · exact goes_finish hmoves (.inl (hends rfl)) he rfl
    · exact goes_finish hmoves (.inl (hends rfl)) he rfl
  next turn slot command patience line place =>
    have hbranch : strand.branch = 0 := List.mem_singleton.mp hbranch
    obtain ⟨⟨e, next⟩, hstep, rfl⟩ := Option.map_eq_some_iff.mp h
    have hplace : c.connectAt strand = place.connectPlace? := by
      rw [hat, hbranch]
      rfl
    obtain ⟨hmoves, hends⟩ := moves_of_sendStep? hplace hstep
    have he : e.tasks[strand.task]? = some (.call call (.requesting slot command patience line place)) := by
      rwa [tasks_eq_of_ledger (ledger_sendStep? hstep)]
    rcases next with next | (_ | ⟨⟩) | _
    · exact goes_setTask hmoves he rfl (soleBranch_update hbranch _ _)
    · exact goes_finish hmoves (.inl (hends rfl)) he rfl
    · exact goes_setTask hmoves he rfl (soleBranch_none.symm.trans (soleBranch_update hbranch _ _))
    · exact goes_finish hmoves (.inl (hends rfl)) he rfl
  next slot command deadline =>
    unfold awaitStep? at h
    refine .aside hat ?_
    split at h
    next => cases h; exact .single (aside_finish hwas rfl)
    next =>
      split at h
      next => cases h; exact .single (aside_finish hwas rfl)
      next =>
        split at h
        next => cases h; exact .single (aside_finish hwas rfl)
        next => cases h
  next turn branches =>
    obtain ⟨⟨e, next⟩, hstep, rfl⟩ := Option.map_eq_some_iff.mp h
    obtain ⟨place, hmoves, hrest, hends⟩ := moves_of_updateStep? hat hstep
    have he : e.tasks[strand.task]? = some (.call call (.updating branches)) := by
      rwa [tasks_eq_of_ledger (ledger_updateStep? hstep)]
    rcases next with rest | result | _
    · exact goes_setTask hmoves he rfl (hrest rest rfl)
    · obtain ⟨rfl, hother⟩ := hends rfl
      exact goes_finish hmoves (.inl hother) he rfl
    · obtain ⟨rfl, hother⟩ := hends rfl
      exact goes_finish hmoves (.inl hother) he rfl
  next handles =>
    refine .aside hat ?_
    split at h
    next => cases h; exact asides_setTask (c := { c with handles := some handles }) hwas rfl rfl
    next => cases h; exact .single (aside_finish (c := { c with handles := some handles }) hwas rfl)
  next =>
    cases h
    have hclosed : c.closeLink.tasks[strand.task]? = some (.call call .hangingUp) := hwas
    have hasides : ReflTransGen Circuit.Aside c.circuit c.closeLink.circuit := by
      rw [circuit_closeLink]
      refine (ReflTransGen.single .fall).tail (.record fun effect heffect => ?_)
      rw [List.mem_singleton.mp heffect]
      rfl
    exact .aside hat (hasides.trans (asides_setTask hclosed rfl rfl))
  next =>
    refine .aside hat ?_
    split at h <;> cases h <;> exact asides_collect hwas fun _ => rfl
  next =>
    refine .aside hat ?_
    split at h
    next => cases h; exact .single (aside_finish hwas rfl)
    next => cases h
  next handles deadline =>
    refine .aside hat ?_
    split at h
    next => cases h; exact asides_setTask hwas rfl rfl
    next =>
      split at h
      next => cases h; exact asides_abort_setTask hwas handles.refresh rfl rfl rfl
      next => cases h
  next handles deadline =>
    refine .aside hat ?_
    split at h
    next => cases h; exact .single (aside_finish hwas rfl)
    next =>
      split at h
      next =>
        cases h
        refine (asides_abort handles.receive c).trans (.single ?_)
        rcases tasks_abort hwas handles.receive with hstill | hover
        · exact aside_finish hstill rfl
        · exact aside_finish hover rfl
      next => cases h
  next => cases h

/-! ## Actions -/

theorem goes_of_go? (h : c.go? strand turn = some d) : c.circuit.Goes strand d.circuit := by
  unfold go? at h
  split at h
  next => cases h
  next was hwas =>
    split at h
    next hbranch =>
      split at h
      next => exact goes_of_receiveStep? hwas (List.mem_singleton.mp hbranch) h
      next => exact goes_of_refreshStep? hwas h
      next => exact goes_of_callStep? hwas hbranch h
      next => cases h
    next => cases h

/-- A strand that sees to the link can go on if nothing keeps it from connecting. -/
theorem isSome_go?_of_connectAt {place : ConnectPlace} (hplace : c.connectAt strand = some place)
    (hstep : (c.connectStep? strand .own place).isSome = true) : (c.go? strand .own).isSome = true := by
  obtain ⟨was, hwas, hat⟩ := Option.bind_eq_some_iff.mp hplace
  have hsend (line : String) : (c.sendStep? strand .own line (.connecting place)).isSome = true :=
    Option.isSome_map.trans hstep
  have hupdate {branches : Branches} (hbranch : branches[strand.branch]? = some (some (.connecting place))) :
      (c.updateStep? strand .own branches).isSome = true := by
    rw [updateStep?, hbranch]
    exact Option.isSome_map.trans (hsend _)
  rw [isSome_go?_iff hwas]
  cases was with
  | receive here =>
    cases here with
    | connecting here =>
      obtain ⟨hbranch, hhere⟩ := soleBranch_eq_some hat
      cases hhere
      exact ⟨List.mem_singleton.mpr hbranch, Option.isSome_map.trans hstep⟩
    | fresh | reading => cases hat
  | refresh here =>
    cases here with
    | updating branches =>
      obtain ⟨hbranch, hlt⟩ := Branches.getElem?_of_connects hat
      refine ⟨List.mem_range.mpr (Nat.lt_succ_of_lt hlt), ?_⟩
      simp only [refreshStep?, Nat.ne_of_lt hlt, if_false]
      exact Option.isSome_map.trans (hupdate hbranch)
    | fresh | resting => cases hat
  | call call here =>
    cases here with
    | connecting here =>
      obtain ⟨hbranch, hhere⟩ := soleBranch_eq_some hat
      cases hhere
      exact ⟨List.mem_singleton.mpr hbranch, Option.isSome_map.trans hstep⟩
    | sending line send =>
      obtain ⟨hbranch, hsend'⟩ := soleBranch_eq_some hat
      cases send <;> cases hsend'
      exact ⟨List.mem_singleton.mpr hbranch, Option.isSome_map.trans (hsend line)⟩
    | requesting slot command patience line send =>
      obtain ⟨hbranch, hsend'⟩ := soleBranch_eq_some hat
      cases send <;> cases hsend'
      exact ⟨List.mem_singleton.mpr hbranch, Option.isSome_map.trans (hsend line)⟩
    | updating branches =>
      obtain ⟨hbranch, hlt⟩ := Branches.getElem?_of_connects hat
      exact ⟨List.mem_range.mpr hlt, Option.isSome_map.trans (hupdate hbranch)⟩
    | _ => cases hat
  | _ => cases hat

/-- Whoever holds the lock and waits for nothing can go on. -/
theorem isSome_go?_of_holder {place : ConnectPlace} (hplace : c.connectAt strand = some place)
    (hholds : c.connectLock.holder = some strand)
    (hlooks : place = .queued ∨ place = .checking ∨ place = .announcing) :
    (c.go? strand .own).isSome = true := by
  refine isSome_go?_of_connectAt hplace ?_
  rcases hlooks with rfl | rfl | rfl
  · rw [connectStep?, if_pos hholds]
    split <;> rfl
  · rw [connectStep?]
    split
    next => rfl
    next =>
      split
      next => rfl
      next => dsimp only; split <;> rfl
  · rfl

/-- Time does not pass while whoever holds the lock waits for nothing. -/
theorem perform?_pass_of_holder {place : ConnectPlace} (hplace : c.connectAt strand = some place)
    (hholds : c.connectLock.holder = some strand)
    (hlooks : place = .queued ∨ place = .checking ∨ place = .announcing) (millis : Nat) :
    c.perform? (.pass millis) = none := by
  obtain ⟨d, hd⟩ := Option.isSome_iff_exists.mp (isSome_go?_of_holder hplace hholds hlooks)
  exact perform?_pass_of_go? (by decide) hd millis

/-- Every action of the client is a step of its circuit. -/
theorem step_of_perform? {action : ClientAction} (h : c.perform? action = some d) :
    c.circuit.Step action d.circuit := by
  cases action with
  | go strand turn => exact .go turn (goes_of_go? h)
  | call call =>
    cases h
    have hnone : c.circuit.receivers c.tasks.length = none := by
      show c.receiverAt c.tasks.length = none
      simp [receiverAt]
    have hadd : (c.addTask (.call call .fresh)).circuit = c.circuit :=
      (circuit_addTask rfl c).trans (Circuit.setReceiver_eq_self hnone)
    rw [hadd]
    exact .call call
  | pass millis =>
    have hstuck {strand : Strand} {place : ConnectPlace} (hholds : c.connectLock.holder = some strand)
        (hlooks : place = .queued ∨ place = .checking ∨ place = .announcing) : c.connectAt strand ≠ some place := by
      intro hplace
      cases (perform?_pass_of_holder hplace hholds hlooks millis).symm.trans h
    obtain ⟨-, hd⟩ := Option.ite_none_right_eq_some.mp h
    cases hd
    exact .pass millis _ fun _ hholds =>
      ⟨hstuck hholds (.inl rfl), hstuck hholds (.inr (.inl rfl)), hstuck hholds (.inr (.inr rfl))⟩
  | lose =>
    cases h
    exact .link (fun _ _ => ClientAction.noConfusion) (.inr rfl)
  | arrive | setRefusals | setUnanswered | setWriteFaults =>
    cases h
    exact .link (fun _ _ => ClientAction.noConfusion) (.inl rfl)

theorem orderly_perform? {action : ClientAction} (h : c.perform? action = some d)
    (hc : Orderly c.connectLock fun strand => c.connectAt strand) :
    Orderly d.connectLock fun strand => d.connectAt strand :=
  Circuit.orderly_step (step_of_perform? h) hc

variable {actions : List ClientAction} {settings : ClientSettings} {handlers : Handlers} {link : Link}

/-- After every history the strands in line for the connect lock are those that have asked for it and are not
through, and all of them but the holder of the lock are queued. -/
theorem orderly_of_performAll? (h : (new settings handlers link).performAll? actions = some c) :
    Orderly c.connectLock fun strand => c.connectAt strand :=
  performAll?_induction (P := fun c => Orderly c.connectLock fun strand => c.connectAt strand)
    (fun _ _ _ hc hstep => orderly_perform? hstep hc) h Orderly.free

/-- What is kept by whatever is done to the circuit holds after every history of a new client. -/
theorem circuit_induction {P : Circuit → Prop} (hP : Circuit.Kept P)
    (h : (new settings handlers link).performAll? actions = some c)
    (hnew : P (new settings handlers link).circuit) : P c.circuit := by
  refine (performAll?_induction (P := fun c => (Orderly c.connectLock fun strand => c.connectAt strand) ∧ P c.circuit)
    ?_ h ⟨Orderly.free, hnew⟩).2
  rintro action c d ⟨horder, hc⟩ hstep
  exact ⟨orderly_perform? hstep horder, hP.step (step_of_perform? hstep) horder hc⟩

end Client

end AlarmPanel
