import AlarmPanel.Client.Script
import AlarmPanel.Proofs.Circuit.Announcing
import AlarmPanel.Proofs.Circuit.StepsLeft

/-!
# Calls that find the client closed

A call that needs the link when the client has hung up, or that is made later, learns that the client is closed
and writes nothing (`Client.closed_for_good`). Two things can come between. If the limit to the panel's silence is no
duration, who looks whether the link is silent dies. And a strand whose dial had connected before does not look
whether the client is closed: it lets it be known that the link is up, and goes on to write.
-/

namespace AlarmPanel

/-- Whether the task is about to begin, or a strand of it sees to the link and has not only to make it known. -/
def Task.waits (task : Task) : Prop :=
  task.isFresh = true ∨ ∃ branch place, task.connectAt branch = some place ∧ place ≠ .announcing

/-- A branch that sees to the link is the one that steps, or stays where it is. -/
theorem Branches.connects_or_set {branches : Branches} {branch other : Nat} {here : SendPlace}
    {place : ConnectPlace} (hbranch : branches[branch]? = some (some here))
    (hplace : branches.connects other = some place) :
    here = .connecting place ∨ ∀ next, Branches.connects (branches.set branch next) other = some place := by
  by_cases hother : other = branch
  · rw [hother] at hplace
    rw [(getElem?_of_connects hplace).1] at hbranch
    exact .inl (Option.some.inj (Option.some.inj hbranch)).symm
  · refine .inr fun next => ?_
    rw [connects_set branches (List.getElem?_eq_some_iff.mp hbranch).1, Function.update_of_ne hother]
    exact hplace

namespace Client

variable {c d e : Client} {strand : Strand} {task : Nat} {turn : Turn} {was now state : Task}
  {more : List Effect} {action : ClientAction} {call : Call} {ending : Ending}

/-- The call has not been made yet, or is about to begin, or a strand of it sees to the link and has not only to make
it known. -/
def Waits (task : Nat) (c : Client) : Prop := ∀ state, c.tasks[task]? = some state → state.waits

/-- How a call may end that needs the link of a client that has hung up. -/
inductive Refuses (c : Client) (task : Nat) (call : Call) : Ending → Prop
  | closed : Refuses c task call (.answered (.failed .closed))
  | wrong (fault : ArgumentFault) : Refuses c task call (.answered (.failed (.invalidArgument fault)))
  /-- What it asks for is known. -/
  | known {info : PanelInfo} (hcall : call = .panelInfo) (hknown : c.alarm.panel = some info) :
      Refuses c task call (.answered (.panel info))
  /-- Another strand of it had the link, and its write fails. -/
  | broken {branch : Nat} (hwrites : c.writesAt ⟨task, branch⟩ = true) :
      Refuses c task call (.answered (.failed (.io "broken")))
  /-- The limit to the panel's silence is no duration. -/
  | dies (hlimit : c.settings.staleAfter? = none) : Refuses c task call .died

theorem Silence.refuses (h : c.Silence more d) (hrefuses : d.Refuses task call ending) :
    c.Refuses task call ending := by
  cases hrefuses with
  | closed => exact .closed
  | wrong fault => exact .wrong fault
  | known hcall hknown => exact .known hcall (h.alarm_eq ▸ hknown)
  | broken hwrites => exact .broken (h.writes _ hwrites)
  | dies hlimit => exact .dies (h.settings_eq ▸ hlimit)

/-! ## Steps of those who wait -/

namespace HungUp

variable {line : String} {here : ConnectPlace}

/-- A strand that sees to the link and goes on still sees to it. -/
theorem connecting_of_sendMove (hc : HungUp c) (hhere : here ≠ .dialing) (hannounces : here ≠ .announcing)
    {next : SendPlace} (hmove : SendMove strand line c (.connecting here) more (.place next)) :
    ∃ there, next = .connecting there ∧ there ≠ .announcing := by
  cases hmove with
  | connecting hmove => exact ⟨_, rfl, hc.ne_announcing_of_connectMove hhere hmove⟩
  | connected hmove => cases (hc.result_of_connectMove hhere hmove).resolve_right hannounces

/-- A strand that sees to the link and is through then has not written. -/
theorem result_of_sendMove (hc : HungUp c) (hhere : here ≠ .dialing) (hannounces : here ≠ .announcing)
    {result : Except Error Unit} (hmove : SendMove strand line c (.connecting here) more (.result result)) :
    result = .error .closed := by
  cases hmove with
  | fail hmove => exact (hc.result_of_connectMove hhere hmove).resolve_right hannounces
  | write hplace | fault hplace => exact absurd hplace (by simp)

theorem connects_of_updateMove (hc : HungUp c) {branches rest : Branches}
    (hdialing : branches.connects strand.branch ≠ some .dialing)
    (hwaits : ∃ branch place, branches.connects branch = some place ∧ place ≠ .announcing)
    (hmove : UpdateMove strand c branches more (.place rest)) :
    ∃ branch place, rest.connects branch = some place ∧ place ≠ .announcing := by
  obtain ⟨branch, place, hplace, hother⟩ := hwaits
  cases hmove with
  | goOn hbranch hmove =>
    rcases Branches.connects_or_set hbranch hplace with rfl | hstays
    · rw [Branches.connects_of_getElem? hbranch] at hdialing
      obtain ⟨there, rfl, hthere⟩ := hc.connecting_of_sendMove (fun heq => hdialing (congrArg some heq)) hother hmove
      refine ⟨strand.branch, there, ?_, hthere⟩
      rw [Branches.connects_set branches (List.getElem?_eq_some_iff.mp hbranch).1, Function.update_self]
      rfl
    · exact ⟨branch, place, hstays _, hother⟩
  | done hbranch hmove =>
    rcases Branches.connects_or_set hbranch hplace with rfl | hstays
    · rw [Branches.connects_of_getElem? hbranch] at hdialing
      cases hc.result_of_sendMove (fun heq => hdialing (congrArg some heq)) hother hmove
    · exact ⟨branch, place, hstays _, hother⟩

/-- An update with a branch that sees to the link ends with an error. -/
theorem result_of_updateMove (hc : HungUp c) {branches : Branches} {result : Except Error Unit}
    (hdialing : branches.connects strand.branch ≠ some .dialing)
    (hwaits : ∃ branch place, branches.connects branch = some place ∧ place ≠ .announcing)
    (hmove : UpdateMove strand c branches more (.result result)) :
    result = .error .closed ∨ result = .error (.io "broken") ∧ branches.writesAt strand.branch = true := by
  obtain ⟨branch, place, hplace, hother⟩ := hwaits
  cases hmove with
  | last hbranch hmove hlast =>
    rcases Branches.connects_or_set hbranch hplace with rfl | hstays
    · rw [Branches.connects_of_getElem? hbranch] at hdialing
      cases hc.result_of_sendMove (fun heq => hdialing (congrArg some heq)) hother hmove
    · obtain ⟨hget, -⟩ := Branches.getElem?_of_connects (hstays none)
      cases List.all_eq_true.mp hlast _ (List.mem_of_getElem? hget)
  | fail hbranch hmove =>
    rw [Branches.connects_of_getElem? hbranch] at hdialing
    cases hmove with
    | fail hmove =>
      rcases hc.result_of_connectMove (fun heq => hdialing (congrArg some heq)) hmove with hclosed | rfl
      · exact .inl hclosed
      · cases hmove
    | fault hqueued =>
      refine .inr ⟨rfl, ?_⟩
      rw [Branches.writesAt_of_getElem? hbranch]
      rcases hqueued with rfl | rfl <;> rfl

/-- A call that needs the link and waits goes on waiting, or ends without having written. -/
theorem refuses_of_callMove (hc : HungUp c) {place : CallPlace}
    (hwas : c.tasks[strand.task]? = some (.call call place)) (hneeds : call.needsLink = true)
    (hwaits : (Task.call call place).waits) (hmove : CallMove strand c d call place more now) :
    now.waits ∨ ∃ ending, now = .over (.call call) ending ∧ c.Refuses strand.task call ending := by
  have hdialing := hc.not_dialing hwas
  have hwrites := writesAt_of_task hwas
  -- A call that waits at none of these places does not wait.
  have hnot (hfresh : (Task.call call place).isFresh = false)
      (hnowhere : (Task.call call place).connectAt = fun _ => none) : False := by
    rcases hwaits with hbegins | ⟨branch, here, hhere, -⟩
    · cases hfresh.symm.trans hbegins
    · rw [hnowhere] at hhere
      cases hhere
  have hsends {here : SendPlace} (hfresh : (Task.call call place).isFresh = false)
      (hsole : (Task.call call place).connectAt = soleBranch here.connectPlace?) :
      ∃ there, here = .connecting there ∧ there ≠ .dialing ∧ there ≠ .announcing := by
    rcases hwaits with hbegins | ⟨branch, there, hthere, hother⟩
    · cases hfresh.symm.trans hbegins
    · have hdialing := hdialing 0
      rw [hsole] at hthere hdialing
      obtain ⟨-, hthere⟩ := soleBranch_eq_some hthere
      cases here with
      | connecting here =>
        cases hthere
        exact ⟨there, rfl, ne_of_sole_place hdialing, hother⟩
      | asking | queued | writing => cases hthere
  cases hmove with
  | begin hmove =>
    cases hmove with
    | launch _ hcall => rcases hcall with rfl | rfl <;> cases hneeds
    | started | collect | close | zone => cases hneeds
    | connect | send | ask | update => exact .inl (.inr ⟨0, .asking, rfl, nofun⟩)
    | refuse fault => exact .inr ⟨_, rfl, .wrong fault⟩
    | known hknown => exact .inr ⟨_, rfl, .known rfl hknown⟩
  | connecting hmove =>
    exact .inl (.inr ⟨0, _, rfl, hc.ne_announcing_of_connectMove (ne_of_sole_place (hdialing 0)) hmove⟩)
  | connected hmove =>
    obtain ⟨branch, there, hthere, hother⟩ := hwaits.resolve_left nofun
    obtain ⟨-, hthere⟩ := soleBranch_eq_some hthere
    cases hthere
    cases (hc.result_of_connectMove (ne_of_sole_place (hdialing 0)) hmove).resolve_right hother
    exact .inr ⟨_, rfl, .closed⟩
  | connectingDies hmove => exact .inr ⟨_, rfl, .dies hmove.limit⟩
  | sending hmove | requesting hmove =>
    obtain ⟨there, rfl, hthere, hother⟩ := hsends rfl rfl
    obtain ⟨next, rfl, hnext⟩ := hc.connecting_of_sendMove hthere hother hmove
    exact .inl (.inr ⟨0, next, rfl, hnext⟩)
  | sent hmove =>
    obtain ⟨there, rfl, hthere, hother⟩ := hsends rfl rfl
    cases hc.result_of_sendMove hthere hother hmove
    exact .inr ⟨_, rfl, .closed⟩
  | requested _ hmove =>
    obtain ⟨there, rfl, hthere, hother⟩ := hsends rfl rfl
    cases hc.result_of_sendMove hthere hother hmove
  | requestFails hmove =>
    obtain ⟨there, rfl, hthere, hother⟩ := hsends rfl rfl
    cases hc.result_of_sendMove hthere hother hmove
    exact .inr ⟨_, rfl, .closed⟩
  | sendingDies hmove | requestDies hmove => exact .inr ⟨_, rfl, .dies hmove.limit⟩
  | updating hmove =>
    have hbranches := hwaits.resolve_left nofun
    exact .inl (.inr (hc.connects_of_updateMove (hdialing _) hbranches hmove))
  | updated hmove =>
    have hbranches := hwaits.resolve_left nofun
    rcases hc.result_of_updateMove (hdialing _) hbranches hmove with rfl | ⟨rfl, hbefore⟩
    · exact .inr ⟨_, rfl, .closed⟩
    · exact .inr ⟨_, rfl, .broken (hwrites.trans hbefore)⟩
  | updateDies hmove => exact .inr ⟨_, rfl, .dies hmove.limit⟩
  | _ => exact (hnot rfl rfl).elim

end HungUp

/-! ## Those who wait can go on -/

/-- A task can make its first step. -/
theorem isSome_go?_of_isFresh (hstate : c.tasks[task]? = some state) (hfresh : state.isFresh = true) :
    (c.go? ⟨task, 0⟩ .own).isSome = true := by
  rw [isSome_go?_iff hstate]
  unfold Task.isFresh at hfresh
  split at hfresh
  next =>
    refine ⟨List.mem_singleton_self 0, ?_⟩
    simp only [receiveStep?]
    split <;> rfl
  next => exact ⟨List.mem_singleton_self 0, rfl⟩
  next => exact ⟨List.mem_singleton_self 0, rfl⟩
  next => cases hfresh

/-- While a strand sees to the link of a client that has hung up, some task can go on: the strand itself, or
the one that holds the lock. -/
theorem HungUp.exists_go?_of_connectAt (hc : HungUp c) {place : ConnectPlace}
    (hplace : c.connectAt strand = some place) : ∃ mover turn, turn ≠ .link ∧ (c.go? mover turn).isSome = true := by
  by_cases hasks : place = .asking
  · subst hasks
    exact ⟨strand, .own, nofun, isSome_go?_of_connectAt hplace rfl⟩
  · have hmem : strand ∈ c.connectLock.line := (hc.orderly.mem_line strand).mpr ⟨place, hplace, hasks⟩
    obtain ⟨holder, hholds⟩ := Option.ne_none_iff_exists'.mp (Lock.holder_ne_none hc.orderly.fair hmem)
    obtain ⟨here, hhere, hne⟩ := hc.orderly.place_of_holder hholds
    cases here with
    | asking => exact absurd rfl hne
    | queued => exact ⟨holder, .own, nofun, isSome_go?_of_holder hhere hholds (.inl rfl)⟩
    | checking => exact ⟨holder, .own, nofun, isSome_go?_of_holder hhere hholds (.inr (.inl rfl))⟩
    | announcing => exact ⟨holder, .own, nofun, isSome_go?_of_holder hhere hholds (.inr (.inr rfl))⟩
    | dialing => exact absurd hhere (hc.prompt.dialing holder)
    | pausing wake =>
      -- Whoever pauses was there when the client was closed, so the signal has been kept for it.
      have hkept := (hc.prompt.heard hc.closed).resolve_right fun hnone => hnone holder wake hhere
      obtain ⟨state, hstate, hat⟩ := Option.bind_eq_some_iff.mp hhere
      obtain ⟨branch, hsome⟩ := (exists_signal_iff hstate).mpr ⟨Task.listens_of_connectAt hat, hkept⟩
      exact ⟨⟨holder.task, branch⟩, .signal, nofun, hsome⟩

theorem HungUp.ready_ne_nil (hc : HungUp c) (hstate : c.tasks[task]? = some state) (hwaits : state.waits) :
    c.ready ≠ [] := by
  have hgoes : ∃ mover turn, turn ≠ .link ∧ (c.go? mover turn).isSome = true := by
    rcases hwaits with hfresh | ⟨branch, place, hplace, -⟩
    · exact ⟨⟨task, 0⟩, .own, nofun, isSome_go?_of_isFresh hstate hfresh⟩
    · have hat : c.connectAt ⟨task, branch⟩ = state.connectAt branch := connectAt_of_task hstate
      exact hc.exists_go?_of_connectAt (hat.trans hplace)
  obtain ⟨mover, turn, hturn, hsome⟩ := hgoes
  obtain ⟨d, hd⟩ := Option.isSome_iff_exists.mp hsome
  exact List.ne_nil_of_mem (mem_ready_of_go? hturn hd)

/-! ## Histories -/

variable {settings : ClientSettings} {handlers : Handlers} {link : Link} {actions later : List ClientAction}

/-- As many dials are made known after the client has hung up as were still to be, and are not cut off. -/
theorem Silence.count_eq (h : c.Silence more d) (hc : HungUp c) (hlater : c.performAll? later = some d) :
    more.count (.notified .connected) + c.untold later + d.announces.toNat = c.announces.toNat := by
  have hnone : more.count (.dialed .connected) = 0 :=
    List.count_eq_zero.mpr fun hmem => by cases h.quiet _ hmem rfl
  have hconnections := connections_append h.effects_eq
  have hannouncements := announcements_append h.effects_eq
  have hcounts := connections_performAll? hc.orderly hlater
  omega

/-- A call that waits when the client has hung up waits still, or has been refused. -/
theorem HungUp.waits_or_refused (hc : HungUp c) (hknown : c.HandlesKnown) (h : c.performAll? later = some d)
    (hneeds : call.needsLink = true) (hwaits : c.Waits task) (hstate : d.tasks[task]? = some state)
    (hcall : state.role = .call call) :
    state.waits ∨ ∃ ending, state = .over (.call call) ending ∧ c.Refuses task call ending := by
  let Kept (d : Client) : Prop := ((∃ more, c.Silence more d) ∧ d.HandlesKnown) ∧
    ∀ state : Task, d.tasks[task]? = some state → state.role = .call call →
      state.waits ∨ ∃ ending, state = .over (.call call) ending ∧ c.Refuses task call ending
  have hstart : Kept c := ⟨⟨⟨[], .refl hc⟩, hknown⟩, fun state hstate _ => .inl (hwaits state hstate)⟩
  have hkept : Kept d := by
    refine performAll?_induction (P := Kept) ?_ h hstart
    rintro action d e ⟨⟨⟨more, hsilence⟩, hknown⟩, hbefore⟩ he
    obtain ⟨more', hsilence'⟩ := hsilence.hungUp.silence he
    refine ⟨⟨⟨_, hsilence.trans hsilence'⟩, handlesKnown_perform? he hknown⟩, fun state hstate hcall => ?_⟩
    rcases call_perform?_cases he hknown hstate hcall with hsame | rfl | ⟨strand, turn, was, rfl, rfl, hwas, hwasCall⟩
    · exact hbefore state hsame hcall
    · exact .inl (.inl rfl)
    · obtain ⟨more, hmove, hreaches⟩ := move_of_go?_of_tasks he hwas hstate
      cases hmove with
      | receive | refresh => cases hwasCall
      | call hmove =>
        cases hwasCall
        have hstill := (hbefore _ hwas rfl).resolve_right fun ⟨_, hover, _⟩ => nomatch hover
        refine (hsilence.hungUp.refuses_of_callMove hwas hneeds hstill hmove).imp id ?_
        exact fun ⟨ending, hover, hrefuses⟩ => ⟨ending, hover, hsilence.refuses hrefuses⟩
  exact hkept.2 state hstate hcall

/-- Closed is closed for good, if dials take no time. Once a call that closes the client is over, whatever happens
later: the link stays down, nobody dials, and only those write that had the link before. Of the link no more is let
known than that it is up, and that only by a strand whose dial had connected before: it has made it known, or has
been cut off, or is still about to. The tasks make no more steps than they have left, and ten more for each call that
is made. A call that needs the link and waits for it, or is made later, can go on until it is over, and ends in one of
the ways of `Client.Refuses`. -/
theorem closed_for_good {closing : Nat} (hlink : link.dialsSuspend = false)
    (h : (new settings handlers link).performAll? actions = some c)
    (hrole : c.roleAt closing = some (.call .close)) (hover : c.isOver closing = true)
    (hlater : c.performAll? later = some d) :
    d.closed = true ∧ d.link.up = false ∧
    (∃ more, d.effects = c.effects ++ more ∧
      (∀ effect ∈ more, effect.aboutLink = true → effect = .notified .connected) ∧
      more.count (.notified .connected) + c.untold later + d.announces.toNat = c.announces.toNat ∧
      ∀ writer line, .wrote writer line ∈ more →
        c.writesAt writer = true ∧ (c.connectAt writer = none ∨ c.connectAt writer = some .announcing)) ∧
    d.stepsLeft + later.countP ClientAction.isStep ≤ c.stepsLeft + 10 * later.countP ClientAction.isCall ∧
    ∀ task call state, call.needsLink = true → c.Waits task → d.tasks[task]? = some state →
      state.role = .call call →
      (state.isOver = false → d.ready ≠ []) ∧
        ∀ ending, state = .over (.call call) ending → c.Refuses task call ending := by
  have hc : HungUp c := hungUp_of_closed hlink h hrole hover
  have hknown : c.HandlesKnown := handlesKnown_of_performAll? h
  obtain ⟨more, hsilence⟩ := silence_of_performAll? hc hlater
  refine ⟨hsilence.hungUp.closed, hsilence.hungUp.down,
    ⟨more, hsilence.effects_eq, hsilence.quiet, hsilence.count_eq hc hlater, fun writer line hwrote => ?_⟩,
    hc.count_steps hlater, fun task call state hneeds hwaits hstate hcall => ?_⟩
  · have hwrites := hsilence.wrote writer line hwrote
    exact ⟨hwrites, connectAt_of_writesAt hwrites⟩
  rcases hc.waits_or_refused hknown hlater hneeds hwaits hstate hcall with hstill | ⟨ending, rfl, hrefuses⟩
  · refine ⟨fun _ => hsilence.hungUp.ready_ne_nil hstate hstill, fun ending hends => ?_⟩
    subst hends
    rcases hstill with hfresh | ⟨branch, place, hplace, -⟩
    · cases hfresh
    · cases hplace
  · refine ⟨nofun, fun ending' hends => ?_⟩
    cases hends
    exact hrefuses

/-- A caller that pauses after a failed dial when the client is closed: it learns so by the signal. -/
theorem closed_for_good_pausing :
    let c₀ := new .default ⟨none, none, none, none⟩ (.new false false false)
    let actions : List ClientAction :=
      [.setRefusals 1, .call .connect] ++ .replicate 4 (.go ⟨0, 0⟩ .own) ++ [.call .close] ++
        .replicate 3 (.go ⟨1, 0⟩ .own)
    ∃ c d ending, c₀.performAll? actions = some c ∧ c.tasks[0]? = some (.call .connect (.connecting (.pausing 100))) ∧
      c.performAll? [.go ⟨0, 0⟩ .signal] = some d ∧ d.link.up = false ∧
      d.tasks[0]? = some (.over (.call .connect) ending) ∧ c.Refuses 0 .connect ending := by
  intro c₀ actions
  have hrun : (c₀.performAll? actions).any fun c =>
      c.tasks[0]? = some (.call .connect (.connecting (.pausing 100))) ∧ c.roleAt 1 = some (.call .close) ∧
        c.isOver 1 = true ∧ (c.performAll? [.go ⟨0, 0⟩ .signal]).any fun d =>
          d.tasks[0]? = some (.over (.call .connect) (.answered (.failed .closed))) := by
    decide +kernel
  obtain ⟨c, hc, hends⟩ := (Option.any_eq_true _ _).mp hrun
  obtain ⟨hpauses, hrole, hover, hends⟩ := of_decide_eq_true hends
  obtain ⟨d, hd, hends⟩ := (Option.any_eq_true _ _).mp hends
  have hstate := of_decide_eq_true hends
  obtain ⟨-, hdown, -, -, hcalls⟩ := closed_for_good rfl hc hrole hover hd
  have hwaits : c.Waits 0 := by
    intro state hstate
    obtain rfl := Option.some.inj (hpauses.symm.trans hstate)
    exact .inr ⟨0, .pausing 100, rfl, nofun⟩
  exact ⟨c, d, _, hc, hpauses, hd, hdown, hstate, (hcalls 0 .connect _ rfl hwaits hstate rfl).2 _ rfl⟩

/-- With a limit to the panel's silence that is no duration, a call made after the client has been closed dies
without an answer. -/
theorem dies_after_closing :
    let settings := { ClientSettings.default with updateSeconds := 18446744073709551615, graceSeconds := 1 }
    let c₀ := new settings ⟨none, none, none, none⟩ (.new false false false)
    let actions : List ClientAction :=
      [.call .connect] ++ .replicate 5 (.go ⟨0, 0⟩ .own) ++ [.call .close] ++ .replicate 3 (.go ⟨1, 0⟩ .own) ++
        [.call .connect] ++ .replicate 3 (.go ⟨2, 0⟩ .own)
    ∃ c, c₀.performAll? actions = some c ∧ c.answer? 0 = some .done ∧ c.answer? 1 = some .done ∧
      c.tasks[2]? = some (.over (.call .connect) .died) ∧ c.answer? 2 = none := by
  intro settings c₀ actions
  have hrun : (c₀.performAll? actions).any fun c => c.answer? 0 = some .done ∧ c.answer? 1 = some .done ∧
      c.tasks[2]? = some (.over (.call .connect) .died) ∧ c.answer? 2 = none := by
    decide +kernel
  obtain ⟨c, hc, hends⟩ := (Option.any_eq_true _ _).mp hrun
  exact ⟨c, hc, of_decide_eq_true hends⟩

/-- A dial that has connected is made known after the call that closes the client is over, and the caller is told that
all is well. -/
theorem connected_after_closing :
    let c₀ := new .default ⟨none, none, none, none⟩ (.new false false false)
    let actions : List ClientAction :=
      [.call .connect] ++ .replicate 4 (.go ⟨0, 0⟩ .own) ++ [.call .close] ++ .replicate 3 (.go ⟨1, 0⟩ .own)
    ∃ c d, c₀.performAll? actions = some c ∧ c.closed = true ∧ c.answer? 1 = some .done ∧ c.link.up = false ∧
      c.perform? (.go ⟨0, 0⟩ .own) = some d ∧ d.effects = c.effects ++ [.notified .connected] ∧
        d.answer? 0 = some .done := by
  intro c₀ actions
  have hrun : (c₀.performAll? actions).any fun c => c.closed = true ∧ c.answer? 1 = some .done ∧ c.link.up = false ∧
      (c.perform? (.go ⟨0, 0⟩ .own)).any fun d =>
        d.effects = c.effects ++ [.notified .connected] ∧ d.answer? 0 = some .done := by
    decide +kernel
  obtain ⟨c, hc, hends⟩ := (Option.any_eq_true _ _).mp hrun
  obtain ⟨hclosed, hdone, hdown, hstep⟩ := of_decide_eq_true hends
  obtain ⟨d, hd, hafter⟩ := (Option.any_eq_true _ _).mp hstep
  exact ⟨c, d, hc, hclosed, hdone, hdown, hd, of_decide_eq_true hafter⟩

/-- A dial that takes time outlives the closing: the link comes up after the call that closes the client is over,
and the caller in the dial is told that all is well. -/
theorem dial_outlives_closing :
    let c₀ := new .default ⟨none, none, none, none⟩ (.new false true false)
    let actions : List ClientAction :=
      [.call .connect] ++ .replicate 4 (.go ⟨0, 0⟩ .own) ++ [.call .close] ++ .replicate 3 (.go ⟨1, 0⟩ .own) ++
        [.go ⟨0, 0⟩ .link, .go ⟨0, 0⟩ .own]
    ∃ c, c₀.performAll? actions = some c ∧ c.closed = true ∧ c.answer? 1 = some .done ∧ c.link.up = true ∧
      c.answer? 0 = some .done := by
  intro c₀ actions
  have hrun : (c₀.performAll? actions).any fun c => c.closed = true ∧ c.answer? 1 = some .done ∧
      c.link.up = true ∧ c.answer? 0 = some .done := by
    decide +kernel
  obtain ⟨c, hc, hends⟩ := (Option.any_eq_true _ _).mp hrun
  exact ⟨c, hc, of_decide_eq_true hends⟩

end Client

end AlarmPanel
