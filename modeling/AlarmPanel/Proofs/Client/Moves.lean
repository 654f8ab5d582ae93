import AlarmPanel.Proofs.Circuit.Steps
import AlarmPanel.Proofs.Client.Roles

/-!
# The moves of the tasks

What a step of a task may be depends on where its strand stands, and on little of the client beside. The
moves are listed place by place: each says what the step does to the outside, where it leads, and what must
hold of the client for it. A strand that sees to the link makes a `Client.ConnectMove`, one that sends a
`Client.SendMove`, and a branch of an update a `Client.UpdateMove`; `Client.Move` lists those of whole tasks.
`Client.move_of_go?` says that the lists are complete.
-/

namespace AlarmPanel

/-- What stays the same with a link, whatever happens to it. -/
def Link.habits (l : Link) : Bool × Bool × Bool := (l.readsLinger, l.dialsSuspend, l.writesSuspend)

theorem Link.habits_dial (l : Link) : l.dial.1.habits = l.habits := by
  unfold dial
  split
  next => rfl
  next => split <;> rfl

theorem Link.habits_write (l : Link) : l.write.1.habits = l.habits := by
  unfold write
  split
  next => dsimp only; split <;> rfl
  next => rfl

theorem Link.habits_read? {l m : Link} {number : Nat} {outcome : ReadOutcome}
    (h : l.read? number = some (m, outcome)) : m.habits = l.habits := by
  unfold read? at h
  split at h
  next => split at h <;> cases h <;> rfl
  next =>
    split at h
    next => cases h
    next => cases h; rfl

/-- Whether a call needs the link to be up, unless what it asks for is known or wrong. -/
def Call.needsLink : Call → Bool
  | .start | .keepalive | .close | .zone _ => false
  | _ => true

namespace Client

variable {c d e : Client} {strand : Strand} {task : Nat} {turn : Turn} {was now : Task}
  {first second more : List Effect}

/-! ## What is added -/

/-- What stays the same with a client. -/
def habits (c : Client) : ClientSettings × Bool × Bool × Bool := (c.settings, c.link.habits)

/-- A link with the same habits leaves the client's as they are. -/
theorem habits_eq_of_link {link : Link} (h : link.habits = c.link.habits) :
    ({ c with link } : Client).habits = c.habits := congrArg (Prod.mk c.settings) h

/-- The client `d` has done more to the outside than `c`, and its habits are the same. -/
structure Adds (c : Client) (more : List Effect) (d : Client) : Prop where
  effects_eq : d.effects = c.effects ++ more
  habits_eq : d.habits = c.habits

namespace Adds

theorem nothing (hlog : d.log = c.log) (hhabits : d.habits = c.habits) : c.Adds [] d :=
  ⟨by rw [List.append_nil, effects, effects, hlog], hhabits⟩

theorem refl (c : Client) : c.Adds [] c := nothing rfl rfl

theorem trans (hcd : c.Adds first d) (hde : d.Adds second e) : c.Adds (first ++ second) e :=
  ⟨by rw [hde.effects_eq, hcd.effects_eq, List.append_assoc], hde.habits_eq.trans hcd.habits_eq⟩

theorem note {effect : Effect} (hlog : d.log = ⟨c.now, effect⟩ :: c.log)
    (hhabits : d.habits = c.habits) : c.Adds [effect] d :=
  ⟨by simp [effects, hlog], hhabits⟩

end Adds

/-! ## Connecting -/

/-- A step of a strand that sees to the link. -/
inductive ConnectMove (strand : Strand) (c : Client) :
    ConnectPlace → List Effect → Next ConnectPlace (Except Error Unit) → Prop
  | ask : ConnectMove strand c .asking [] (.place .queued)
  | enter : ConnectMove strand c .queued [] (.place .checking)
  | hangUp (hstale : c.isStale? = some true) :
      ConnectMove strand c .queued [.closedLink] (.place .checking)
  | die (hstale : c.isStale? = none) : ConnectMove strand c .queued [] .dies
  | find (hup : c.link.up = true) : ConnectMove strand c .checking [] (.result (.ok ()))
  | refuse (hclosed : c.closed = true) : ConnectMove strand c .checking [] (.result (.error .closed))
  | dial (hopen : c.closed = false) (hsuspends : c.link.dialsSuspend = true) :
      ConnectMove strand c .checking [.dialing strand] (.place .dialing)
  | fail {place : ConnectPlace} {begun : List Effect} {outcome : DialOutcome}
      (hplace : place = .dialing ∧ begun = [] ∨
        place = .checking ∧ c.closed = false ∧ begun = [.dialing strand])
      (houtcome : outcome ≠ .connected) :
      ConnectMove strand c place (begun ++ [.dialed outcome]) (.place (.pausing (c.wakeTime c.backoff.delay)))
  | connect {place : ConnectPlace} {begun : List Effect}
      (hplace : place = .dialing ∧ begun = [] ∨
        place = .checking ∧ c.closed = false ∧ begun = [.dialing strand]) :
      ConnectMove strand c place (begun ++ [.dialed .connected]) (.place .announcing)
  | announce : ConnectMove strand c .announcing [.notified .connected] (.result (.ok ()))
  | wake {wake : Nat} (hwake : wake ≤ c.now) : ConnectMove strand c (.pausing wake) [] (.place .checking)
  | signal {wake : Nat} (hkept : c.shutdown = true) :
      ConnectMove strand c (.pausing wake) [] (.result (.error .closed))

theorem endDial_cases (c : Client) :
    (∃ outcome, outcome ≠ .connected ∧ c.Adds [.dialed outcome] c.endDial.1 ∧
        c.endDial.2 = .place (.pausing (c.wakeTime c.backoff.delay))) ∨
      c.Adds [.dialed .connected] c.endDial.1 ∧ c.endDial.2 = .place .announcing := by
  have hhabits := habits_eq_of_link c.link.habits_dial
  unfold endDial
  rcases hdial : c.link.dial with ⟨link, outcome⟩
  rw [hdial] at hhabits
  cases outcome with
  | connected => exact .inr ⟨.note rfl hhabits, rfl⟩
  | refused => exact .inl ⟨.refused, nofun, .note rfl hhabits, rfl⟩
  | unanswered => exact .inl ⟨.unanswered, nofun, .note rfl hhabits, rfl⟩

/-- The end of a dial, by a strand that was in it or has just begun it. -/
theorem connectMove_endDial {place : ConnectPlace} {begun : List Effect}
    (hplace : place = .dialing ∧ begun = [] ∨
      place = .checking ∧ c.closed = false ∧ begun = [.dialing strand])
    (hbegun : c.Adds begun d) (hwake : d.wakeTime d.backoff.delay = c.wakeTime c.backoff.delay) :
    ∃ more, ConnectMove strand c place more d.endDial.2 ∧ c.Adds more d.endDial.1 := by
  rcases d.endDial_cases with ⟨outcome, houtcome, hadds, hnext⟩ | ⟨hadds, hnext⟩
  · rw [hnext, hwake]
    exact ⟨_, .fail hplace houtcome, hbegun.trans hadds⟩
  · rw [hnext]
    exact ⟨_, .connect hplace, hbegun.trans hadds⟩

theorem connectMove_of_connectStep? {place : ConnectPlace}
    {next : Client × Next ConnectPlace (Except Error Unit)}
    (h : c.connectStep? strand turn place = some next) :
    ∃ more, ConnectMove strand c place more next.2 ∧ c.Adds more next.1 := by
  unfold connectStep? at h
  split at h
  next => cases h; exact ⟨[], .ask, .nothing rfl rfl⟩
  next =>
    split at h
    next =>
      split at h
      next hstale => cases h; exact ⟨_, .hangUp hstale, .note rfl rfl⟩
      next => cases h; exact ⟨[], .enter, .refl c⟩
      next hstale => cases h; exact ⟨[], .die hstale, .nothing rfl rfl⟩
    next => cases h
  next =>
    split at h
    next hup => cases h; exact ⟨[], .find hup, .nothing rfl rfl⟩
    next =>
      split at h
      next hclosed => cases h; exact ⟨[], .refuse hclosed, .nothing rfl rfl⟩
      next hopen =>
        have hopen : c.closed = false := Bool.eq_false_iff.mpr hopen
        have hdialing : c.Adds [.dialing strand] (c.note (.dialing strand)) := .note rfl rfl
        dsimp only at h
        split at h
        next hsuspends => cases h; exact ⟨_, .dial hopen hsuspends, hdialing⟩
        next => cases h; exact connectMove_endDial (.inr ⟨rfl, hopen, rfl⟩) hdialing rfl
  next => cases h; exact connectMove_endDial (.inl ⟨rfl, rfl⟩) (.refl c) rfl
  next => cases h; exact ⟨_, .announce, .note rfl rfl⟩
  next =>
    split at h
    next hwake => cases h; exact ⟨[], .wake hwake, .refl c⟩
    next => cases h
  next =>
    split at h
    next hkept => cases h; exact ⟨[], .signal hkept, .nothing rfl rfl⟩
    next => cases h
  next => cases h

/-- Whoever has a dial to make known does so in its next step. -/
theorem announceLink_of_connectStep? {next : Client × Next ConnectPlace (Except Error Unit)}
    (h : c.connectStep? strand turn .announcing = some next) : next.1 = c.announceLink := by
  cases turn <;> cases h
  rfl

/-- Nobody dies who connects unless the limit to the panel's silence is no duration. -/
theorem ConnectMove.limit {place : ConnectPlace} (hmove : ConnectMove strand c place more .dies) :
    c.settings.staleAfter? = none := by
  cases hmove with
  | die hstale =>
    unfold isStale? at hstale
    split at hstale
    next => cases hstale
    next => exact Option.map_eq_none_iff.mp hstale

/-! ## Sending and updating -/

/-- A step of a strand that sends the line. -/
inductive SendMove (strand : Strand) (line : String) (c : Client) :
    SendPlace → List Effect → Next SendPlace (Except Error Unit) → Prop
  | connecting {place next : ConnectPlace} {more : List Effect}
      (hmove : ConnectMove strand c place more (.place next)) :
      SendMove strand line c (.connecting place) more (.place (.connecting next))
  | connected {place : ConnectPlace} {more : List Effect}
      (hmove : ConnectMove strand c place more (.result (.ok ()))) :
      SendMove strand line c (.connecting place) more (.place .asking)
  | fail {place : ConnectPlace} {more : List Effect} {e : Error}
      (hmove : ConnectMove strand c place more (.result (.error e))) :
      SendMove strand line c (.connecting place) more (.result (.error e))
  | die {place : ConnectPlace} {more : List Effect} (hmove : ConnectMove strand c place more .dies) :
      SendMove strand line c (.connecting place) more .dies
  | ask : SendMove strand line c .asking [] (.place .queued)
  | begin : SendMove strand line c .queued [] (.place .writing)
  | write {place : SendPlace} (hplace : place = .queued ∨ place = .writing) :
      SendMove strand line c place [.wrote strand line] (.result (.ok ()))
  | fault {place : SendPlace} (hplace : place = .queued ∨ place = .writing) :
      SendMove strand line c place [] (.result (.error (.io "broken")))

theorem sendMove_endWrite {line : String} {place : SendPlace} (hplace : place = .queued ∨ place = .writing) :
    ∃ more, SendMove strand line c place more (c.endWrite strand line).2 ∧
      c.Adds more (c.endWrite strand line).1 := by
  have hhabits := habits_eq_of_link c.link.habits_write
  unfold endWrite
  rcases hwrite : c.link.write with ⟨link, written⟩
  rw [hwrite] at hhabits
  cases written with
  | true => exact ⟨_, .write hplace, .note rfl hhabits⟩
  | false => exact ⟨_, .fault hplace, .nothing rfl hhabits⟩

theorem sendMove_of_sendStep? {line : String} {place : SendPlace}
    {next : Client × Next SendPlace (Except Error Unit)}
    (h : c.sendStep? strand turn line place = some next) :
    ∃ more, SendMove strand line c place more next.2 ∧ c.Adds more next.1 := by
  unfold sendStep? at h
  split at h
  next place =>
    obtain ⟨⟨d, after⟩, hstep, rfl⟩ := Option.map_eq_some_iff.mp h
    obtain ⟨more, hmove, hadds⟩ := connectMove_of_connectStep? hstep
    rcases after with place | (_ | ⟨⟩) | _
    · exact ⟨more, .connecting hmove, hadds⟩
    · exact ⟨more, .fail hmove, hadds⟩
    · exact ⟨more, .connected hmove, hadds⟩
    · exact ⟨more, .die hmove, hadds⟩
  next => cases h; exact ⟨[], .ask, .nothing rfl rfl⟩
  next =>
    split at h
    next =>
      split at h
      next => cases h; exact ⟨[], .begin, .refl c⟩
      next => cases h; exact sendMove_endWrite (.inl rfl)
    next => cases h
  next => cases h; exact sendMove_endWrite (.inr rfl)
  next => cases h

theorem SendMove.limit {line : String} {place : SendPlace} (hmove : SendMove strand line c place more .dies) :
    c.settings.staleAfter? = none := by
  cases hmove with
  | die hmove => exact hmove.limit

/-- A step of a branch of an update, by its strand. -/
inductive UpdateMove (strand : Strand) (c : Client) (branches : Branches) :
    List Effect → Next Branches (Except Error Unit) → Prop
  | goOn {place next : SendPlace} {more : List Effect}
      (hbranch : branches[strand.branch]? = some (some place))
      (hmove : SendMove strand (branchLine strand.branch) c place more (.place next)) :
      UpdateMove strand c branches more (.place (branches.set strand.branch (some next)))
  | done {place : SendPlace} {more : List Effect} (hbranch : branches[strand.branch]? = some (some place))
      (hmove : SendMove strand (branchLine strand.branch) c place more (.result (.ok ()))) :
      UpdateMove strand c branches more (.place (branches.set strand.branch none))
  | last {place : SendPlace} {more : List Effect} (hbranch : branches[strand.branch]? = some (some place))
      (hmove : SendMove strand (branchLine strand.branch) c place more (.result (.ok ())))
      (hlast : (branches.set strand.branch none).all Option.isNone = true) :
      UpdateMove strand c branches more (.result (.ok ()))
  | fail {place : SendPlace} {more : List Effect} {e : Error}
      (hbranch : branches[strand.branch]? = some (some place))
      (hmove : SendMove strand (branchLine strand.branch) c place more (.result (.error e))) :
      UpdateMove strand c branches more (.result (.error e))
  | die {place : SendPlace} {more : List Effect} (hbranch : branches[strand.branch]? = some (some place))
      (hmove : SendMove strand (branchLine strand.branch) c place more .dies) :
      UpdateMove strand c branches more .dies

theorem UpdateMove.limit {branches : Branches} (hmove : UpdateMove strand c branches more .dies) :
    c.settings.staleAfter? = none := by
  cases hmove with
  | die _ hmove => exact hmove.limit

theorem updateMove_of_updateStep? {branches : Branches} {next : Client × Next Branches (Except Error Unit)}
    (h : c.updateStep? strand turn branches = some next) :
    ∃ more, UpdateMove strand c branches more next.2 ∧ c.Adds more next.1 := by
  unfold updateStep? at h
  split at h
  next place hbranch =>
    obtain ⟨⟨d, after⟩, hstep, rfl⟩ := Option.map_eq_some_iff.mp h
    obtain ⟨more, hmove, hadds⟩ := sendMove_of_sendStep? hstep
    rcases after with place | (_ | ⟨⟩) | _
    · exact ⟨more, .goOn hbranch hmove, hadds⟩
    · exact ⟨more, .fail hbranch hmove, hadds⟩
    · refine ⟨more, ?_, hadds⟩
      dsimp only [afterBranch]
      split
      next hlast => exact .last hbranch hmove hlast
      next => exact .done hbranch hmove
    · exact ⟨more, .die hbranch hmove, hadds⟩
  next => cases h

/-! ## The background tasks -/

/-- The task has come to `now`, and this is what its step has done to the outside. -/
structure Reaches (c : Client) (task : Nat) (more : List Effect) (now : Task) (d : Client) : Prop where
  adds : c.Adds more d
  now_eq : d.tasks[task]? = some now

theorem reaches_setTask (hadds : c.Adds more e) (htasks : e.tasks = c.tasks) (hwas : c.tasks[task]? = some was)
    (now : Task) : c.Reaches task more now (e.setTask task now) := by
  refine ⟨⟨hadds.effects_eq, hadds.habits_eq⟩, ?_⟩
  show (e.tasks.set task now)[task]? = some now
  rw [htasks]
  exact List.getElem?_set_self (List.getElem?_eq_some_iff.mp hwas).1

theorem reaches_finish (hadds : c.Adds more e) (htasks : e.tasks = c.tasks) (hwas : c.tasks[task]? = some was)
    (role : Role) (ending : Ending) :
    c.Reaches task more (.over role ending) (e.finish task role ending) :=
  reaches_setTask (e := e.withdraw task) ⟨hadds.effects_eq, hadds.habits_eq⟩ htasks hwas _

/-- A step of the receive task. -/
inductive ReceiveMove (strand : Strand) (c : Client) : ReceivePlace → List Effect → Task → Prop
  | stop (hclosed : c.closed = true) : ReceiveMove strand c .fresh [] (.over .receive .stopped)
  | begin (hopen : c.closed = false) : ReceiveMove strand c .fresh [] (.receive (.connecting .asking))
  | connecting {place next : ConnectPlace} {more : List Effect}
      (hmove : ConnectMove strand c place more (.place next)) :
      ReceiveMove strand c (.connecting place) more (.receive (.connecting next))
  | connected {place : ConnectPlace} {more : List Effect} (number : Nat)
      (hmove : ConnectMove strand c place more (.result (.ok ()))) :
      ReceiveMove strand c (.connecting place) more (.receive (.reading number))
  /-- The link is gone again when it has been made known. -/
  | miss (hdown : c.link.up = false) (hopen : c.closed = false) :
      ReceiveMove strand c (.connecting .announcing) [.notified .connected, .notified .disconnected] (.receive .fresh)
  | part (hdown : c.link.up = false) (hclosed : c.closed = true) :
      ReceiveMove strand c (.connecting .announcing) [.notified .connected] (.over .receive .stopped)
  | refused {place : ConnectPlace} {more : List Effect} {e : Error}
      (hmove : ConnectMove strand c place more (.result (.error e))) :
      ReceiveMove strand c (.connecting place) more (.over .receive .stopped)
  | die {place : ConnectPlace} {more : List Effect} (hmove : ConnectMove strand c place more .dies) :
      ReceiveMove strand c (.connecting place) more (.over .receive .died)
  | read {number : Nat} {more : List Effect} (hup : c.link.up = true)
      (hmore : ∀ effect ∈ more, effect.reports = true) :
      ReceiveMove strand c (.reading number) more (.receive (.reading number))
  | lose {number : Nat} (hopen : c.closed = false) :
      ReceiveMove strand c (.reading number) [.notified .disconnected] (.receive .fresh)
  | leave {number : Nat} (hclosed : c.closed = true) :
      ReceiveMove strand c (.reading number) [] (.over .receive .stopped)

theorem adds_receiveLine (bytes : List UInt8) (c : Client) :
    ∃ more, (∀ effect ∈ more, effect.reports = true) ∧ c.Adds more (c.receiveLine bytes) := by
  unfold receiveLine
  cases eventOfBytes? bytes with
  | none => exact ⟨[], fun _ hmem => absurd hmem List.not_mem_nil, .refl c⟩
  | some event =>
    refine ⟨_, fun effect heffect => ?_, effects_receive event c, ?_⟩
    · obtain ⟨report, -, hreport⟩ := List.mem_flatMap.mp heffect
      exact c.handlers.effects_reports report effect hreport
    · obtain ⟨_, _, _, hreceive⟩ := exists_receive event c
      dsimp only
      rw [hreceive]
      rfl

/-- The receive task has made the link known, and begins to read from it if it is still there. -/
theorem receiveMove_announceLink (hwas : c.tasks[task]? = some (.receive (.connecting .announcing))) :
    ∃ more now, ReceiveMove strand c (.connecting .announcing) more now ∧
      c.Reaches task more now (c.announceLink.beginRead task) := by
  have hadds : c.Adds [.notified .connected] c.announceLink := .note rfl rfl
  unfold beginRead loseLink
  split
  next => exact ⟨_, _, .connected _ .announce, reaches_setTask hadds rfl hwas _⟩
  next hdown =>
    have hdown : c.link.up = false := Bool.eq_false_iff.mpr hdown
    split
    next hclosed => exact ⟨_, _, .part hdown hclosed, reaches_finish hadds rfl hwas ..⟩
    next hopen =>
      have hlost : c.announceLink.Adds [.notified .disconnected] (c.announceLink.notify .disconnected) :=
        .note rfl rfl
      exact ⟨_, _, .miss hdown (Bool.eq_false_iff.mpr hopen), reaches_setTask (hadds.trans hlost) rfl hwas _⟩

theorem receiveMove_of_receiveStep? {place : ReceivePlace} (hwas : c.tasks[strand.task]? = some (.receive place))
    (hbranch : strand.branch = 0) (h : c.receiveStep? strand turn place = some d) :
    ∃ more now, ReceiveMove strand c place more now ∧ c.Reaches strand.task more now d := by
  unfold receiveStep? at h
  dsimp only at h
  split at h
  next =>
    split at h
    next hclosed => cases h; exact ⟨_, _, .stop hclosed, reaches_finish (.refl c) rfl hwas ..⟩
    next hopen =>
      cases h
      exact ⟨_, _, .begin (Bool.eq_false_iff.mpr hopen), reaches_setTask (.refl c) rfl hwas _⟩
  next turn place =>
    obtain ⟨⟨e, next⟩, hstep, rfl⟩ := Option.map_eq_some_iff.mp h
    obtain ⟨more, hmove, hadds⟩ := connectMove_of_connectStep? hstep
    have htasks : e.tasks = c.tasks := tasks_eq_of_ledger (ledger_connectStep? hstep)
    rcases next with next | (_ | ⟨⟩) | _
    · exact ⟨more, _, .connecting hmove, reaches_setTask hadds htasks hwas _⟩
    · exact ⟨more, _, .refused hmove, reaches_finish hadds htasks hwas ..⟩
    · by_cases hannounces : place = .announcing
      · subst hannounces
        obtain rfl : e = c.announceLink := announceLink_of_connectStep? hstep
        exact receiveMove_announceLink hwas
      · -- Whoever else is through finds the link up.
        have hplace : c.connectAt strand = some place := by
          rw [connectAt_of_task hwas, hbranch]
          rfl
        have hup : e.link.up = true := (connect_of_connectStep? hplace hstep).2.1 rfl hannounces
        dsimp only [beginRead]
        rw [if_pos hup]
        exact ⟨more, _, .connected _ hmove, reaches_setTask hadds htasks hwas _⟩
    · exact ⟨more, _, .die hmove, reaches_finish hadds htasks hwas ..⟩
  next number =>
    obtain ⟨⟨link, outcome⟩, hread, rfl⟩ := Option.map_eq_some_iff.mp h
    have hlink : c.Adds [] { c with link } := .nothing rfl (habits_eq_of_link (Link.habits_read? hread))
    obtain ⟨-, hfalls, ⟨⟨bytes, rfl⟩, hup, hnumber⟩ | ⟨rfl, -⟩⟩ := Link.read?_cases hread
    · obtain ⟨more, hmore, hadds⟩ := adds_receiveLine bytes { c with link }
      obtain ⟨-, heq, htasks⟩ := asides_receiveLine bytes { c with link }
      have hbefore : c.link.up = true := hfalls.elim (fun hsame => hsame.symm.trans hup) fun hdown => by
        cases hup.symm.trans hdown
      dsimp only [beginRead]
      rw [heq, if_pos hup, hnumber]
      exact ⟨more, _, .read hbefore hmore, reaches_setTask (hlink.trans hadds) htasks hwas _⟩
    · dsimp only [loseLink]
      split
      next hclosed => exact ⟨_, _, .leave hclosed, reaches_finish hlink rfl hwas ..⟩
      next hopen =>
        have hlost : c.Adds [.notified .disconnected] ({ c with link }.notify .disconnected) :=
          .note rfl (habits_eq_of_link (Link.habits_read? hread))
        exact ⟨_, _, .lose (Bool.eq_false_iff.mpr hopen), reaches_setTask hlost rfl hwas _⟩
  next => cases h

/-- A step of the refresh task. -/
inductive RefreshMove (strand : Strand) (c : Client) : RefreshPlace → List Effect → Task → Prop
  | begin (wake : Nat) : RefreshMove strand c .fresh [] (.refresh (.resting wake))
  | stop {wake : Nat} (hclosed : c.closed = true ∨ c.shutdown = true) :
      RefreshMove strand c (.resting wake) [] (.over .refresh .stopped)
  | update {wake : Nat} (hopen : c.closed = false) :
      RefreshMove strand c (.resting wake) [] (.refresh (.updating freshBranches))
  | cutOff {branches : Branches} (hkept : c.shutdown = true) :
      RefreshMove strand c (.updating branches) [] (.over .refresh .stopped)
  | updating {branches rest : Branches} {more : List Effect}
      (hmove : UpdateMove strand c branches more (.place rest)) :
      RefreshMove strand c (.updating branches) more (.refresh (.updating rest))
  | rest {branches : Branches} {more : List Effect} {result : Except Error Unit} (wake : Nat)
      (hmove : UpdateMove strand c branches more (.result result)) :
      RefreshMove strand c (.updating branches) more (.refresh (.resting wake))
  | die {branches : Branches} {more : List Effect} (hmove : UpdateMove strand c branches more .dies) :
      RefreshMove strand c (.updating branches) more (.over .refresh .died)

theorem refreshMove_of_refreshStep? {place : RefreshPlace} (hwas : c.tasks[strand.task]? = some (.refresh place))
    (h : c.refreshStep? strand turn place = some d) :
    ∃ more now, RefreshMove strand c place more now ∧ c.Reaches strand.task more now d := by
  unfold refreshStep? at h
  dsimp only at h
  split at h
  next => cases h; exact ⟨_, _, .begin _, reaches_setTask (.refl c) rfl hwas _⟩
  next =>
    split at h
    next =>
      split at h
      next hclosed => cases h; exact ⟨_, _, .stop (.inl hclosed), reaches_finish (.refl c) rfl hwas ..⟩
      next hopen =>
        cases h
        exact ⟨_, _, .update (Bool.eq_false_iff.mpr hopen), reaches_setTask (.refl c) rfl hwas _⟩
    next => cases h
  next =>
    split at h
    next hkept => cases h; exact ⟨_, _, .stop (.inr hkept), reaches_finish (.refl c) rfl hwas ..⟩
    next => cases h
  next turn branches =>
    split at h
    next =>
      split at h
      next hkept => cases h; exact ⟨_, _, .cutOff hkept.2, reaches_finish (.refl c) rfl hwas ..⟩
      next => cases h
    next =>
      obtain ⟨⟨e, next⟩, hstep, rfl⟩ := Option.map_eq_some_iff.mp h
      obtain ⟨more, hmove, hadds⟩ := updateMove_of_updateStep? hstep
      have htasks : e.tasks = c.tasks := tasks_eq_of_ledger (ledger_updateStep? hstep)
      rcases next with rest | result | _
      · exact ⟨more, _, .updating hmove, reaches_setTask hadds htasks hwas _⟩
      · have hwithdraw : c.Adds more (e.withdraw strand.task) := ⟨hadds.effects_eq, hadds.habits_eq⟩
        exact ⟨more, _, .rest _ hmove, reaches_setTask hwithdraw htasks hwas _⟩
      · exact ⟨more, _, .die hmove, reaches_finish hadds htasks hwas ..⟩
  next => cases h

/-! ## Calls -/

/-- The first step of a call. -/
inductive FirstMove (c : Client) : Call → Task → Prop
  | launch {call : Call} (handles : Handles) (hcall : call = .start ∨ call = .keepalive) :
      FirstMove c call (.call call (.launched handles))
  | started (hstarted : c.started = true) : FirstMove c .start (.over (.call .start) (.answered .done))
  | collect (hstarted : c.started = true) : FirstMove c .keepalive (.call .keepalive .collecting)
  | connect : FirstMove c .connect (.call .connect (.connecting .asking))
  | close : FirstMove c .close (.call .close .hangingUp)
  | send {call : Call} (line : String) (hcall : call.needsLink = true) :
      FirstMove c call (.call call (.sending line (.connecting .asking)))
  | ask {call : Call} (slot : Nat) (command : String) (patience : Duration) (line : String)
      (hcall : call.needsLink = true) :
      FirstMove c call (.call call (.requesting slot command patience line (.connecting .asking)))
  | refuse {call : Call} (fault : ArgumentFault) (hcall : call.needsLink = true) :
      FirstMove c call (.over (.call call) (.answered (.failed (.invalidArgument fault))))
  | update : FirstMove c .update (.call .update (.updating freshBranches))
  | known {info : PanelInfo} (hknown : c.alarm.panel = some info) :
      FirstMove c .panelInfo (.over (.call .panelInfo) (.answered (.panel info)))
  | zone (number : UInt8) (known : Option (Option Bool)) :
      FirstMove c (.zone number) (.over (.call (.zone number)) (.answered (.zone number known)))

theorem exists_fault_of_requestLine? {command : String} {e : Error} (h : requestLine? command = .error e) :
    ∃ fault, e = .invalidArgument fault := by
  unfold requestLine? at h
  dsimp only at h
  split at h
  next => cases h; exact ⟨_, rfl⟩
  next => cases h

theorem exists_fault_of_statusCode {command : String} {e : Error} (h : statusCode command = .error e) :
    ∃ fault, e = .invalidArgument fault := by
  unfold statusCode at h
  dsimp only at h
  split at h
  next =>
    split at h
    next => cases h
    next => cases h; exact ⟨_, rfl⟩
  next => cases h; exact ⟨_, rfl⟩

theorem exists_fault_of_switchCommand {number : UInt8} {on : Bool} {e : Error}
    (h : switchCommand number on = .error e) : ∃ fault, e = .invalidArgument fault := by
  unfold switchCommand at h
  split at h
  next => cases h
  next => cases h; exact ⟨_, rfl⟩

theorem firstMove_beginSend {call : Call} {command : Except Error String}
    (hwas : c.tasks[task]? = some (.call call .fresh)) (hcall : call.needsLink = true)
    (hcommand : ∀ e, command = .error e → ∃ fault, e = .invalidArgument fault) :
    ∃ now, FirstMove c call now ∧ c.Reaches task [] now (c.beginSend task call command) := by
  unfold beginSend
  split
  next line hline => exact ⟨_, .send line hcall, reaches_setTask (.refl c) rfl hwas _⟩
  next e he =>
    have hfault : ∃ fault, e = .invalidArgument fault := by
      cases command with
      | error e' => exact hcommand e (congrArg Except.error (Except.error.inj he))
      | ok command => exact exists_fault_of_requestLine? he
    obtain ⟨fault, rfl⟩ := hfault
    exact ⟨_, .refuse fault hcall, reaches_finish (.refl c) rfl hwas ..⟩

theorem adds_shareSlot (code : UInt8) (c : Client) : c.Adds [] (c.shareSlot code).1 := by
  unfold shareSlot
  dsimp only
  split
  next => split <;> exact .nothing rfl rfl
  next => exact .nothing rfl rfl

theorem firstMove_beginAsk {call : Call} (hwas : c.tasks[task]? = some (.call call .fresh))
    (hcall : call.needsLink = true) (command : String) (patience : Duration) :
    ∃ now, FirstMove c call now ∧ c.Reaches task [] now (c.beginAsk task call command patience) := by
  cases hcode : statusCode command with
  | ok code =>
    rw [beginAsk_of_statusCode task patience c hcode]
    exact ⟨_, .ask _ _ _ _ hcall, reaches_setTask (adds_shareSlot code c) (tasks_shareSlot code c) hwas _⟩
  | error e =>
    obtain ⟨fault, rfl⟩ := exists_fault_of_statusCode hcode
    simp only [beginAsk, hcode]
    exact ⟨_, .refuse fault hcall, reaches_finish (.refl c) rfl hwas ..⟩

theorem firstMove_launch {call : Call} (hwas : c.tasks[task]? = some (.call call .fresh))
    (hcall : call = .start ∨ call = .keepalive) :
    ∃ now, FirstMove c call now ∧ c.Reaches task [] now (c.launch task call) := by
  refine ⟨_, .launch ⟨c.tasks.length, c.tasks.length + 1⟩ hcall, .nothing rfl rfl, ?_⟩
  have hlt : task < (c.tasks ++ [Task.receive .fresh] ++ [Task.refresh .fresh]).length := by
    have hbefore := (List.getElem?_eq_some_iff.mp hwas).1
    simp only [List.length_append]
    omega
  exact List.getElem?_set_self hlt

theorem firstMove_beginCall {call : Call} (hwas : c.tasks[task]? = some (.call call .fresh)) :
    ∃ now, FirstMove c call now ∧ c.Reaches task [] now (c.beginCall task call) := by
  cases call with
  | start =>
    simp only [beginCall]
    split
    next hstarted => exact ⟨_, .started hstarted, reaches_finish (.refl c) rfl hwas ..⟩
    next => exact firstMove_launch hwas (.inl rfl)
  | keepalive =>
    simp only [beginCall]
    split
    next hstarted => exact ⟨_, .collect hstarted, reaches_setTask (.refl c) rfl hwas _⟩
    next => exact firstMove_launch hwas (.inr rfl)
  | connect => exact ⟨_, .connect, reaches_setTask (.refl c) rfl hwas _⟩
  | close =>
    have hshut : c.Adds [] c.shutDown := .nothing rfl rfl
    exact ⟨_, .close, reaches_setTask hshut rfl hwas _⟩
  | ask command patience => exact firstMove_beginAsk hwas rfl command patience
  | update => exact ⟨_, .update, reaches_setTask (.refl c) rfl hwas _⟩
  | panelInfo =>
    simp only [beginCall]
    split
    next info hknown => exact ⟨_, .known hknown, reaches_finish (.refl c) rfl hwas ..⟩
    next => exact firstMove_beginAsk hwas rfl _ _
  | refreshAuxOutputs =>
    exact firstMove_beginAsk hwas rfl (RequestId.command .auxOutputs) c.settings.requestTimeout
  | zone number => exact ⟨_, .zone .., reaches_finish (.refl c) rfl hwas ..⟩
  | setAuxOutput number on => exact firstMove_beginSend hwas rfl fun _ => exists_fault_of_switchCommand
  | send | armAway | armHome | disarm | panic =>
    refine firstMove_beginSend hwas rfl fun e herror => ?_
    cases herror

/-- A step of a call, with the client after it. -/
inductive CallMove (strand : Strand) (c d : Client) : Call → CallPlace → List Effect → Task → Prop
  | begin {call : Call} {now : Task} (hmove : FirstMove c call now) : CallMove strand c d call .fresh [] now
  | connecting {call : Call} {place next : ConnectPlace} {more : List Effect}
      (hmove : ConnectMove strand c place more (.place next)) :
      CallMove strand c d call (.connecting place) more (.call call (.connecting next))
  | connected {call : Call} {place : ConnectPlace} {more : List Effect} {result : Except Error Unit}
      (hmove : ConnectMove strand c place more (.result result)) :
      CallMove strand c d call (.connecting place) more (.over (.call call) (.answered (plainAnswer result)))
  | connectingDies {call : Call} {place : ConnectPlace} {more : List Effect}
      (hmove : ConnectMove strand c place more .dies) :
      CallMove strand c d call (.connecting place) more (.over (.call call) .died)
  | sending {call : Call} {line : String} {place next : SendPlace} {more : List Effect}
      (hmove : SendMove strand line c place more (.place next)) :
      CallMove strand c d call (.sending line place) more (.call call (.sending line next))
  | sent {call : Call} {line : String} {place : SendPlace} {more : List Effect} {result : Except Error Unit}
      (hmove : SendMove strand line c place more (.result result)) :
      CallMove strand c d call (.sending line place) more (.over (.call call) (.answered (plainAnswer result)))
  | sendingDies {call : Call} {line : String} {place : SendPlace} {more : List Effect}
      (hmove : SendMove strand line c place more .dies) :
      CallMove strand c d call (.sending line place) more (.over (.call call) .died)
  | requesting {call : Call} {slot : Nat} {command line : String} {patience : Duration}
      {place next : SendPlace} {more : List Effect} (hmove : SendMove strand line c place more (.place next)) :
      CallMove strand c d call (.requesting slot command patience line place) more
        (.call call (.requesting slot command patience line next))
  | requested {call : Call} {slot : Nat} {command line : String} {patience : Duration} {place : SendPlace}
      {more : List Effect} (deadline : Nat) (hmove : SendMove strand line c place more (.result (.ok ()))) :
      CallMove strand c d call (.requesting slot command patience line place) more
        (.call call (.awaiting slot command deadline))
  | requestFails {call : Call} {slot : Nat} {command line : String} {patience : Duration} {place : SendPlace}
      {more : List Effect} {e : Error} (hmove : SendMove strand line c place more (.result (.error e))) :
      CallMove strand c d call (.requesting slot command patience line place) more
        (.over (.call call) (.answered (.failed e)))
  | requestDies {call : Call} {slot : Nat} {command line : String} {patience : Duration} {place : SendPlace}
      {more : List Effect} (hmove : SendMove strand line c place more .dies) :
      CallMove strand c d call (.requesting slot command patience line place) more (.over (.call call) .died)
  | awaited {call : Call} {slot deadline : Nat} {command : String} (answer : Answer) :
      CallMove strand c d call (.awaiting slot command deadline) [] (.over (.call call) (.answered answer))
  | updating {call : Call} {branches rest : Branches} {more : List Effect}
      (hmove : UpdateMove strand c branches more (.place rest)) :
      CallMove strand c d call (.updating branches) more (.call call (.updating rest))
  | updated {call : Call} {branches : Branches} {more : List Effect} {result : Except Error Unit}
      (hmove : UpdateMove strand c branches more (.result result)) :
      CallMove strand c d call (.updating branches) more (.over (.call call) (.answered (plainAnswer result)))
  | updateDies {call : Call} {branches : Branches} {more : List Effect}
      (hmove : UpdateMove strand c branches more .dies) :
      CallMove strand c d call (.updating branches) more (.over (.call call) .died)
  | keepHandles {handles : Handles} (hkept : d.handles = some handles) :
      CallMove strand c d .keepalive (.launched handles) [] (.call .keepalive .collecting)
  | launched {call : Call} {handles : Handles} (hcall : call ≠ .keepalive)
      (hkept : d.handles = some handles) :
      CallMove strand c d call (.launched handles) [] (.over (.call call) (.answered .done))
  | hangUp {call : Call} (hdown : d.link.up = false) :
      CallMove strand c d call .hangingUp [.closedLink] (.call call .collecting)
  | join {handles : Handles} (hhandles : c.handles = some handles) :
      CallMove strand c d .keepalive .collecting [] (.call .keepalive (.joining handles))
  | stop {call : Call} {handles : Handles} (deadline : Nat) (hcall : call ≠ .keepalive)
      (hhandles : c.handles = some handles) :
      CallMove strand c d call .collecting [] (.call call (.stoppingRefresh handles deadline))
  | taken {call : Call} (htaken : c.handles = none) (hnone : d.handles = none) :
      CallMove strand c d call .collecting [] (.over (.call call) (.answered .done))
  | joined {call : Call} {handles : Handles} (hreceive : c.isOver handles.receive = true)
      (hrefresh : c.isOver handles.refresh = true) :
      CallMove strand c d call (.joining handles) [] (.over (.call call) (.answered .done))
  | refreshOver {call : Call} {handles : Handles} {deadline : Nat} (next : Nat)
      (hrefresh : handles.refresh ≠ strand.task → d.isOver handles.refresh = true) :
      CallMove strand c d call (.stoppingRefresh handles deadline) []
        (.call call (.stoppingReceive handles next))
  | receiveOver {call : Call} {handles : Handles} {deadline : Nat}
      (hreceive : handles.receive ≠ strand.task → d.isOver handles.receive = true) :
      CallMove strand c d call (.stoppingReceive handles deadline) []
        (.over (.call call) (.answered .done))

/-! ## Whether a task is over -/

theorem isOver_of_task (h : c.tasks[task]? = some was) : c.isOver task = was.isOver := by
  rw [isOver, h]

/-- What becomes of one task does not end another one, nor bring it back. -/
theorem isOver_setTask {other : Nat} (h : other ≠ task) (now : Task) (c : Client) :
    (c.setTask task now).isOver other = c.isOver other := by
  have hsame : (c.setTask task now).tasks[other]? = c.tasks[other]? := List.getElem?_set_ne h.symm
  rw [isOver, isOver, hsame]

theorem isOver_abort (task : Nat) (c : Client) : (c.abort task).isOver task = true := by
  unfold abort
  split
  next state hstate =>
    split
    next hover => rw [isOver_of_task hstate, hover]
    next =>
      have hnow : (c.finish task state.role .aborted).tasks[task]? = some (.over state.role .aborted) :=
        List.getElem?_set_self (List.getElem?_eq_some_iff.mp hstate).1
      rw [isOver_of_task hnow]
      rfl
  next hnone => rw [isOver, hnone]

theorem adds_abort (other : Nat) (c : Client) : c.Adds [] (c.abort other) := by
  unfold abort
  split
  next => split <;> exact .nothing rfl rfl
  next => exact .refl c

theorem reaches_abort (hwas : c.tasks[task]? = some was) (other : Nat) (now : Task) :
    c.Reaches task [] now ((c.abort other).setTask task now) := by
  have hadds := adds_abort other c
  refine ⟨⟨hadds.effects_eq, hadds.habits_eq⟩, ?_⟩
  have hlt : task < (c.abort other).tasks.length := by
    rcases tasks_abort hwas other with hsame | hover
    · exact (List.getElem?_eq_some_iff.mp hsame).1
    · exact (List.getElem?_eq_some_iff.mp hover).1
  exact List.getElem?_set_self hlt

theorem callMove_of_awaitStep? {call : Call} {slot deadline : Nat} {command : String}
    (hwas : c.tasks[strand.task]? = some (.call call (.awaiting slot command deadline)))
    (h : c.awaitStep? strand.task call slot command deadline = some d) :
    ∃ now, CallMove strand c d call (.awaiting slot command deadline) [] now ∧ c.Reaches strand.task [] now d := by
  have hanswered (answer : Answer) : ∃ now,
      CallMove strand c (c.answerCall strand.task call answer) call (.awaiting slot command deadline) [] now ∧
        c.Reaches strand.task [] now (c.answerCall strand.task call answer) :=
    ⟨_, .awaited answer, reaches_finish (.refl c) rfl hwas ..⟩
  unfold awaitStep? at h
  split at h
  next => cases h; exact hanswered _
  next =>
    split at h
    next => cases h; exact hanswered _
    next =>
      split at h
      next => cases h; exact hanswered _
      next => cases h

/-- Whoever asks for the handles gets them, or is done. -/
theorem callMove_collect {call : Call} (hwas : c.tasks[strand.task]? = some (.call call .collecting))
    (place : Handles → CallPlace)
    (hmove : ∀ d handles, c.handles = some handles →
      CallMove strand c d call .collecting [] (.call call (place handles))) :
    ∃ now, CallMove strand c (c.collect strand.task call place) call .collecting [] now ∧
      c.Reaches strand.task [] now (c.collect strand.task call place) := by
  have htaken : c.Adds [] { c with handles := none } := .nothing rfl rfl
  unfold collect
  split
  next handles hhandles => exact ⟨_, hmove _ handles hhandles, reaches_setTask htaken rfl hwas _⟩
  next hnone => exact ⟨_, .taken hnone hnone, reaches_finish (.refl c) rfl hwas ..⟩

theorem callMove_of_callStep? {call : Call} {place : CallPlace} (hwas : c.tasks[strand.task]? = some (.call call place))
    (h : c.callStep? strand turn call place = some d) :
    ∃ more now, CallMove strand c d call place more now ∧ c.Reaches strand.task more now d := by
  unfold callStep? at h
  dsimp only at h
  split at h
  next =>
    cases h
    obtain ⟨now, hmove, hreaches⟩ := firstMove_beginCall hwas
    exact ⟨[], now, .begin hmove, hreaches⟩
  next turn place =>
    obtain ⟨⟨e, next⟩, hstep, rfl⟩ := Option.map_eq_some_iff.mp h
    obtain ⟨more, hmove, hadds⟩ := connectMove_of_connectStep? hstep
    have htasks : e.tasks = c.tasks := tasks_eq_of_ledger (ledger_connectStep? hstep)
    rcases next with place | result | _
    · exact ⟨more, _, .connecting hmove, reaches_setTask hadds htasks hwas _⟩
    · exact ⟨more, _, .connected hmove, reaches_finish hadds htasks hwas ..⟩
    · exact ⟨more, _, .connectingDies hmove, reaches_finish hadds htasks hwas ..⟩
  next turn line place =>
    obtain ⟨⟨e, next⟩, hstep, rfl⟩ := Option.map_eq_some_iff.mp h
    obtain ⟨more, hmove, hadds⟩ := sendMove_of_sendStep? hstep
    have htasks : e.tasks = c.tasks := tasks_eq_of_ledger (ledger_sendStep? hstep)
    rcases next with place | result | _
    · exact ⟨more, _, .sending hmove, reaches_setTask hadds htasks hwas _⟩
    · exact ⟨more, _, .sent hmove, reaches_finish hadds htasks hwas ..⟩
    · exact ⟨more, _, .sendingDies hmove, reaches_finish hadds htasks hwas ..⟩
  next turn slot command patience line place =>
    obtain ⟨⟨e, next⟩, hstep, rfl⟩ := Option.map_eq_some_iff.mp h
    obtain ⟨more, hmove, hadds⟩ := sendMove_of_sendStep? hstep
    have htasks : e.tasks = c.tasks := tasks_eq_of_ledger (ledger_sendStep? hstep)
    rcases next with place | (_ | ⟨⟩) | _
    · exact ⟨more, _, .requesting hmove, reaches_setTask hadds htasks hwas _⟩
    · exact ⟨more, _, .requestFails hmove, reaches_finish hadds htasks hwas ..⟩
    · exact ⟨more, _, .requested _ hmove, reaches_setTask hadds htasks hwas _⟩
    · exact ⟨more, _, .requestDies hmove, reaches_finish hadds htasks hwas ..⟩
  next slot command deadline =>
    exact ⟨[], callMove_of_awaitStep? hwas h⟩
  next turn branches =>
    obtain ⟨⟨e, next⟩, hstep, rfl⟩ := Option.map_eq_some_iff.mp h
    obtain ⟨more, hmove, hadds⟩ := updateMove_of_updateStep? hstep
    have htasks : e.tasks = c.tasks := tasks_eq_of_ledger (ledger_updateStep? hstep)
    rcases next with rest | result | _
    · exact ⟨more, _, .updating hmove, reaches_setTask hadds htasks hwas _⟩
    · exact ⟨more, _, .updated hmove, reaches_finish hadds htasks hwas ..⟩
    · exact ⟨more, _, .updateDies hmove, reaches_finish hadds htasks hwas ..⟩
  next handles =>
    have hkept : c.Adds [] { c with handles := some handles } := .nothing rfl rfl
    split at h
    next => cases h; exact ⟨[], _, .keepHandles rfl, reaches_setTask hkept rfl hwas _⟩
    next hcall => cases h; exact ⟨[], _, .launched hcall rfl, reaches_finish hkept rfl hwas ..⟩
  next =>
    cases h
    have hclosed : c.Adds [.closedLink] c.closeLink := .note rfl rfl
    exact ⟨_, _, .hangUp rfl, reaches_setTask hclosed rfl hwas _⟩
  next =>
    split at h
    next => cases h; exact ⟨[], callMove_collect hwas _ fun _ _ hhandles => .join hhandles⟩
    next hcall => cases h; exact ⟨[], callMove_collect hwas _ fun _ _ hhandles => .stop _ hcall hhandles⟩
  next handles =>
    split at h
    next hover =>
      cases h
      obtain ⟨hreceive, hrefresh⟩ := (Bool.and_eq_true _ _).mp hover
      exact ⟨[], _, .joined hreceive hrefresh, reaches_finish (.refl c) rfl hwas ..⟩
    next => cases h
  next handles deadline =>
    split at h
    next hover =>
      cases h
      refine ⟨[], _, .refreshOver _ fun hne => ?_, reaches_setTask (.refl c) rfl hwas _⟩
      rwa [isOver_setTask hne]
    next =>
      split at h
      next =>
        cases h
        refine ⟨[], _, .refreshOver _ fun hne => ?_, reaches_abort hwas handles.refresh _⟩
        rw [isOver_setTask hne]
        exact isOver_abort handles.refresh c
      next => cases h
  next handles deadline =>
    split at h
    next hover =>
      cases h
      refine ⟨[], _, .receiveOver fun hne => ?_, reaches_finish (.refl c) rfl hwas ..⟩
      exact (isOver_setTask (c := c.withdraw strand.task) hne _).trans hover
    next =>
      split at h
      next =>
        cases h
        have hreaches := reaches_abort hwas handles.receive (.over (.call call) (.answered .done))
        refine ⟨[], _, .receiveOver fun hne => ?_,
          ⟨hreaches.adds.effects_eq, hreaches.adds.habits_eq⟩, hreaches.now_eq⟩
        exact (isOver_setTask (c := (c.abort handles.receive).withdraw strand.task) hne _).trans
          (isOver_abort handles.receive c)
      next => cases h
  next => cases h

/-! ## Tasks -/

/-- A step of a task, with the client after it. -/
inductive Move (strand : Strand) (c d : Client) : Task → List Effect → Task → Prop
  | receive {place : ReceivePlace} {more : List Effect} {now : Task}
      (hmove : ReceiveMove strand c place more now) : Move strand c d (.receive place) more now
  | refresh {place : RefreshPlace} {more : List Effect} {now : Task}
      (hmove : RefreshMove strand c place more now) : Move strand c d (.refresh place) more now
  | call {call : Call} {place : CallPlace} {more : List Effect} {now : Task}
      (hmove : CallMove strand c d call place more now) : Move strand c d (.call call place) more now

/-- Every step of a task is one of the moves. -/
theorem move_of_go? (h : c.go? strand turn = some d) :
    ∃ was more now, c.tasks[strand.task]? = some was ∧ Move strand c d was more now ∧
      c.Reaches strand.task more now d := by
  unfold go? at h
  split at h
  next => cases h
  next was hwas =>
    split at h
    next hbranch =>
      split at h
      next =>
        obtain ⟨more, now, hmove, hreaches⟩ :=
          receiveMove_of_receiveStep? hwas (List.mem_singleton.mp hbranch) h
        exact ⟨_, more, now, hwas, .receive hmove, hreaches⟩
      next =>
        obtain ⟨more, now, hmove, hreaches⟩ := refreshMove_of_refreshStep? hwas h
        exact ⟨_, more, now, hwas, .refresh hmove, hreaches⟩
      next =>
        obtain ⟨more, now, hmove, hreaches⟩ := callMove_of_callStep? hwas h
        exact ⟨_, more, now, hwas, .call hmove, hreaches⟩
      next => cases h
    next => cases h

/-- A step of a task leads from where the task stood to where it stands. -/
theorem move_of_go?_of_tasks (h : c.go? strand turn = some d) (hwas : c.tasks[strand.task]? = some was)
    (hnow : d.tasks[strand.task]? = some now) :
    ∃ more, Move strand c d was more now ∧ c.Reaches strand.task more now d := by
  obtain ⟨was', more, now', hwas', hmove, hreaches⟩ := move_of_go? h
  obtain rfl := Option.some.inj (hwas.symm.trans hwas')
  obtain rfl := Option.some.inj (hreaches.now_eq.symm.trans hnow)
  exact ⟨more, hmove, hreaches⟩

/-- An action that is no step of a task does nothing to the outside. -/
theorem move_of_perform? {action : ClientAction} (h : c.perform? action = some d) :
    c.Adds [] d ∨ ∃ strand turn was more now, action = .go strand turn ∧ c.tasks[strand.task]? = some was ∧
      Move strand c d was more now ∧ c.Reaches strand.task more now d := by
  cases action with
  | go strand turn =>
    obtain ⟨was, more, now, hwas, hmove, hreaches⟩ := move_of_go? h
    exact .inr ⟨strand, turn, was, more, now, rfl, hwas, hmove, hreaches⟩
  | pass millis =>
    obtain ⟨-, hd⟩ := Option.ite_none_right_eq_some.mp h
    cases hd
    exact .inl (.nothing rfl rfl)
  | call | arrive | lose | setRefusals | setUnanswered | setWriteFaults =>
    cases h
    exact .inl (.nothing rfl rfl)

theorem habits_perform? {action : ClientAction} (h : c.perform? action = some d) : d.habits = c.habits := by
  rcases move_of_perform? h with hadds | ⟨_, _, _, _, _, -, -, -, hreaches⟩
  · exact hadds.habits_eq
  · exact hreaches.adds.habits_eq

end Client

end AlarmPanel
