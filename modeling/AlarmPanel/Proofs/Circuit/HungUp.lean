import AlarmPanel.Proofs.Circuit.Notices
import AlarmPanel.Proofs.Circuit.Places

/-!
# Clients that have hung up

A call that closes the client hangs up the link in its second step. If dials take no time, nobody can be in a
dial then, and since whoever checks the link sees that the client is closed, nobody begins another one: the
link stays down, and only those write that had it before (`Client.Silence`). Nothing more is let known of it, but for
a dial that had connected before and was still to be made known.
-/

namespace AlarmPanel

/-! ## Who has the link -/

/-- Whether a strand that sends a line has the link, for all that it looks at: it has found it up, or has dialled. -/
def SendPlace.writes : SendPlace → Bool
  | .connecting .announcing => true
  | .connecting _ => false
  | .asking | .queued | .writing => true

theorem SendPlace.connectPlace?_of_writes {place : SendPlace} (h : place.writes = true) :
    place.connectPlace? = none ∨ place.connectPlace? = some .announcing := by
  unfold writes at h
  split at h
  next => exact .inr rfl
  next => cases h
  next => exact .inl rfl
  next => exact .inl rfl
  next => exact .inl rfl

/-- Whether a branch of an update has the link and is not through with its line. -/
def Branches.writesAt (branches : Branches) (branch : Nat) : Bool :=
  branches[branch]?.join.any SendPlace.writes

theorem Branches.writesAt_of_getElem? {branches : Branches} {branch : Nat} {here : SendPlace}
    (h : branches[branch]? = some (some here)) : branches.writesAt branch = here.writes := by
  rw [writesAt, h]
  rfl

theorem Branches.writesAt_set {branches : Branches} {branch other : Nat} {place : Option SendPlace}
    (h : Branches.writesAt (branches.set branch place) other = true) :
    branches.writesAt other = true ∨ other = branch ∧ place.any SendPlace.writes = true := by
  unfold writesAt at h ⊢
  by_cases hother : branch = other
  · subst hother
    rw [List.getElem?_set_self'] at h
    cases hbranch : branches[branch]? with
    | none =>
      rw [hbranch] at h
      cases h
    | some old =>
      rw [hbranch] at h
      exact .inr ⟨rfl, h⟩
  · rw [List.getElem?_set_ne hother] at h
    exact .inl h

namespace Task

/-- Whether a branch of the task sends a line and has the link. -/
def writesAt : Task → Nat → Bool
  | .call _ (.sending _ place), _ => place.writes
  | .call _ (.requesting _ _ _ _ place), _ => place.writes
  | .call _ (.updating branches), branch => branches.writesAt branch
  | .refresh (.updating branches), branch => branches.writesAt branch
  | _, _ => false

theorem writesAt_of_isIdle {task : Task} (h : task.isIdle = true) (branch : Nat) :
    task.writesAt branch = false := by
  rcases eq_of_isIdle h with (rfl | rfl | ⟨asked, rfl⟩) | ⟨role, rfl⟩ <;> rfl

/-- Whoever has the link sees to it no longer, or has only to make it known. -/
theorem connectAt_of_writesAt {task : Task} {branch : Nat} (h : task.writesAt branch = true) :
    task.connectAt branch = none ∨ task.connectAt branch = some .announcing := by
  have hsend {place : SendPlace} (h : place.writes = true) :
      soleBranch place.connectPlace? branch = none ∨ soleBranch place.connectPlace? branch = some .announcing := by
    rcases soleBranch_cases place.connectPlace? branch with hnone | hsame
    · exact .inl hnone
    · rw [hsame]
      exact SendPlace.connectPlace?_of_writes h
  have hbranches {branches : Branches} (h : branches.writesAt branch = true) :
      branches.connects branch = none ∨ branches.connects branch = some .announcing := by
    obtain ⟨place, hplace, hwrites⟩ := (Option.any_eq_true _ _).mp h
    rw [Branches.connects, hplace]
    exact SendPlace.connectPlace?_of_writes hwrites
  unfold writesAt at h
  split at h
  next => exact hsend h
  next => exact hsend h
  next => exact hbranches h
  next => exact hbranches h
  next => cases h

end Task

namespace Circuit

open Relation

variable {k l : Circuit} {action : ClientAction}

theorem asides_effects (h : ReflTransGen Aside k l) : ∃ more, l.effects = k.effects ++ more := by
  refine asides_induction (P := fun m => ∃ more, m.effects = k.effects ++ more) ?_ h ⟨[], (List.append_nil _).symm⟩
  rintro m n haside ⟨more, hmore⟩
  cases haside with
  | @record new => exact ⟨more ++ new, by rw [Circuit.record, hmore, List.append_assoc]⟩
  | lose =>
    refine ⟨more ++ [.notified .disconnected], ?_⟩
    show m.effects ++ _ = _
    rw [hmore, List.append_assoc]
  | fall | hear | begin | giveUp | launch | read => exact ⟨more, hmore⟩

/-- The link comes up by a dial. -/
theorem Step.dialed_of_up (h : k.Step action l) (hk : Orderly k.lock k.places) (hdown : k.up = false)
    (hup : l.up = true) : ∃ more, l.effects = k.effects ++ more ∧ .dialed .connected ∈ more := by
  obtain ⟨m, hshift, -, hasides⟩ := h.shift_asides hk
  obtain ⟨rest, hrest⟩ := asides_effects hasides
  have hrises : ¬m.up = false := fun hm => by cases hup.symm.trans (asides_down hasides hm)
  cases hshift with
  | quiet _ _ _ hfalls =>
    refine absurd (Bool.eq_false_iff.mpr fun hm => ?_) hrises
    cases hdown.symm.trans (hfalls hm)
  | @succeed begun _ _ _ _ _ heffects =>
    refine ⟨begun ++ [.dialed .connected] ++ rest, ?_, by simp⟩
    rw [hrest, heffects]
    simp only [List.append_assoc]
  | announce _ _ hsame => exact absurd (hsame.trans hdown) hrises
  | launch _ hm | read _ _ _ hm | lose _ _ hm =>
    subst hm
    exact absurd hdown hrises

end Circuit

namespace Client

variable {c d e : Client} {strand mover : Strand} {task : Nat} {turn : Turn} {was now state : Task}
  {more : List Effect} {action : ClientAction} {place : ConnectPlace}

/-- Whether a strand sends a line and has the link. -/
def writesAt (strand : Strand) (c : Client) : Bool :=
  (c.tasks[strand.task]?).any fun task => task.writesAt strand.branch

theorem writesAt_of_task (h : c.tasks[strand.task]? = some was) :
    c.writesAt strand = was.writesAt strand.branch := by
  rw [writesAt, h]
  rfl

theorem connectAt_of_writesAt (h : c.writesAt strand = true) :
    c.connectAt strand = none ∨ c.connectAt strand = some .announcing := by
  obtain ⟨state, hstate, hwrites⟩ := (Option.any_eq_true _ _).mp h
  rw [connectAt_of_task hstate]
  exact Task.connectAt_of_writesAt hwrites

/-! ## Hanging up -/

/-- The client is closed and its link is down, and nobody is in a dial. -/
structure HungUp (c : Client) : Prop where
  orderly : Orderly c.connectLock fun strand => c.connectAt strand
  prompt : Prompt c
  closed : c.closed = true
  down : c.link.up = false

/-- What can still be seen of a client that has hung up: of its link no more than that a dial is made known, and lines
of those who had the link before. -/
structure Outlives (c : Client) (effect : Effect) : Prop where
  quiet : effect.aboutLink = true → effect = .notified .connected
  wrote : ∀ writer line, effect = .wrote writer line → c.writesAt writer = true

namespace HungUp

variable {here next : ConnectPlace} {line : String}

theorem not_dialing (hc : HungUp c) (hwas : c.tasks[task]? = some was) (branch : Nat) :
    was.connectAt branch ≠ some .dialing := by
  have hat : c.connectAt ⟨task, branch⟩ = was.connectAt branch := connectAt_of_task hwas
  rw [← hat]
  exact hc.prompt.dialing _

/-- Nobody dials. -/
theorem not_dials (hc : HungUp c) (hhere : here ≠ .dialing) {begun : List Effect} :
    ¬(here = .dialing ∧ begun = [] ∨ here = .checking ∧ c.closed = false ∧ begun = [.dialing strand]) := by
  rintro (⟨hdialing, -⟩ | ⟨-, hopen, -⟩)
  · exact hhere hdialing
  · cases hc.closed.symm.trans hopen

/-- Whoever sees to the link can still hang it up, or make a dial known that connected before. -/
theorem effects_of_connectMove (hc : HungUp c) (hhere : here ≠ .dialing) {next : Next ConnectPlace (Except Error Unit)}
    (hmove : ConnectMove strand c here more next) :
    ∀ effect ∈ more, effect = .closedLink ∨ effect = .notified .connected := by
  cases hmove with
  | hangUp => exact fun effect heffect => .inl (List.mem_singleton.mp heffect)
  | announce => exact fun effect heffect => .inr (List.mem_singleton.mp heffect)
  | dial hopen => cases hc.closed.symm.trans hopen
  | fail hdials | connect hdials => exact absurd hdials (hc.not_dials hhere)
  | _ => exact fun _ hmem => absurd hmem List.not_mem_nil

/-- Whoever is through with the link learns that the client is closed, unless it has only made a dial known. -/
theorem result_of_connectMove (hc : HungUp c) (hhere : here ≠ .dialing) {result : Except Error Unit}
    (hmove : ConnectMove strand c here more (.result result)) : result = .error .closed ∨ here = .announcing := by
  cases hmove with
  | find hup => cases hc.down.symm.trans hup
  | announce => exact .inr rfl
  | refuse | signal => exact .inl rfl

/-- Nobody comes to have a dial to make known. -/
theorem ne_announcing_of_connectMove (hc : HungUp c) (hhere : here ≠ .dialing)
    (hmove : ConnectMove strand c here more (.place next)) : next ≠ .announcing := by
  rintro rfl
  cases hmove with
  | connect hdials => exact hc.not_dials hhere hdials

theorem effects_of_sendMove (hc : HungUp c) {here : SendPlace} (hhere : here.connectPlace? ≠ some .dialing)
    {next : Next SendPlace (Except Error Unit)} (hmove : SendMove strand line c here more next) :
    ∀ effect ∈ more, (effect = .closedLink ∨ effect = .notified .connected) ∨
      effect = .wrote strand line ∧ here.writes = true := by
  intro effect heffect
  cases hmove with
  | connecting hmove | connected hmove | fail hmove | die hmove =>
    have hplace := fun hdialing => hhere (congrArg some hdialing)
    exact .inl (hc.effects_of_connectMove hplace hmove effect heffect)
  | write hplace =>
    refine .inr ⟨List.mem_singleton.mp heffect, ?_⟩
    rcases hplace with rfl | rfl <;> rfl
  | ask | begin | fault => cases heffect

theorem effects_of_updateMove (hc : HungUp c) {branches : Branches}
    (hwas : branches.connects strand.branch ≠ some .dialing) {next : Next Branches (Except Error Unit)}
    (hmove : UpdateMove strand c branches more next) :
    ∀ effect ∈ more, (effect = .closedLink ∨ effect = .notified .connected) ∨
      ∃ line, effect = .wrote strand line ∧ branches.writesAt strand.branch = true := by
  have hsends {here : SendPlace} {next : Next SendPlace (Except Error Unit)}
      (hbranch : branches[strand.branch]? = some (some here))
      (hmove : SendMove strand (branchLine strand.branch) c here more next) (effect : Effect)
      (heffect : effect ∈ more) :
      (effect = .closedLink ∨ effect = .notified .connected) ∨
        ∃ line, effect = .wrote strand line ∧ branches.writesAt strand.branch = true := by
    rw [Branches.connects_of_getElem? hbranch] at hwas
    rw [Branches.writesAt_of_getElem? hbranch]
    exact (hc.effects_of_sendMove hwas hmove effect heffect).imp id fun hwrote => ⟨_, hwrote⟩
  cases hmove with
  | goOn hbranch hmove | done hbranch hmove | last hbranch hmove | fail hbranch hmove | die hbranch hmove =>
    exact hsends hbranch hmove

theorem effects_of_move (hc : HungUp c) (hwas : c.tasks[strand.task]? = some was)
    (hmove : Move strand c d was more now) : ∀ effect ∈ more, c.Outlives effect := by
  have hdialing := hc.not_dialing hwas
  have hwrites := writesAt_of_task hwas
  have hsees {effect : Effect} (heffect : effect = .closedLink ∨ effect = .notified .connected) :
      c.Outlives effect := by
    rcases heffect with rfl | rfl
    · exact ⟨nofun, nofun⟩
    · exact ⟨fun _ => rfl, nofun⟩
  have hwrote {effect : Effect} {line : String} (heffect : effect = .wrote strand line)
      (hbefore : was.writesAt strand.branch = true) : c.Outlives effect := by
    rw [heffect]
    refine ⟨nofun, fun writer _ hsame => ?_⟩
    cases hsame
    exact hwrites.trans hbefore
  intro effect heffect
  cases hmove with
  | receive hmove =>
    cases hmove with
    | connecting hmove | connected _ hmove | refused hmove | die hmove =>
      exact hsees (hc.effects_of_connectMove (ne_of_sole_place (hdialing 0)) hmove effect heffect)
    | part => exact hsees (.inr (List.mem_singleton.mp heffect))
    | read hup => cases hc.down.symm.trans hup
    | miss _ hopen | lose hopen => cases hc.closed.symm.trans hopen
    | stop | begin | leave => cases heffect
  | refresh hmove =>
    cases hmove with
    | updating hmove | rest _ hmove | die hmove =>
      rcases hc.effects_of_updateMove (hdialing _) hmove effect heffect with hlink | ⟨line, hline, hbefore⟩
      · exact hsees hlink
      · exact hwrote hline hbefore
    | begin | stop | update | cutOff => cases heffect
  | call hmove =>
    cases hmove with
    | connecting hmove | connected hmove | connectingDies hmove =>
      exact hsees (hc.effects_of_connectMove (ne_of_sole_place (hdialing 0)) hmove effect heffect)
    | sending hmove | sent hmove | sendingDies hmove | requesting hmove | requested _ hmove
    | requestFails hmove | requestDies hmove =>
      rcases hc.effects_of_sendMove (ne_of_soleBranch (hdialing 0)) hmove effect heffect with hlink | ⟨hline, hbefore⟩
      · exact hsees hlink
      · exact hwrote hline hbefore
    | updating hmove | updated hmove | updateDies hmove =>
      rcases hc.effects_of_updateMove (hdialing _) hmove effect heffect with hlink | ⟨line, hline, hbefore⟩
      · exact hsees hlink
      · exact hwrote hline hbefore
    | hangUp => exact hsees (.inl (List.mem_singleton.mp heffect))
    | _ => cases heffect

/-! ## Who writes -/

/-- Nobody comes to have the link. -/
theorem writes_of_sendMove (hc : HungUp c) {here next : SendPlace} (hhere : here.connectPlace? ≠ some .dialing)
    (hmove : SendMove strand line c here more (.place next)) (hnext : next.writes = true) : here.writes = true := by
  cases hmove with
  | connecting hmove =>
    have hother := hc.ne_announcing_of_connectMove (fun hdialing => hhere (congrArg some hdialing)) hmove
    rcases SendPlace.connectPlace?_of_writes hnext with hnone | hsome
    · cases hnone
    · exact absurd (Option.some.inj hsome) hother
  | connected hmove =>
    rcases hc.result_of_connectMove (fun hdialing => hhere (congrArg some hdialing)) hmove with hclosed | rfl
    · cases hclosed
    · rfl
  | ask | begin => rfl

theorem writesAt_of_updateMove (hc : HungUp c) {branches rest : Branches} {branch : Nat}
    (hwas : branches.connects strand.branch ≠ some .dialing)
    (hmove : UpdateMove strand c branches more (.place rest)) (hrest : rest.writesAt branch = true) :
    branches.writesAt branch = true := by
  cases hmove with
  | goOn hbranch hmove =>
    rcases Branches.writesAt_set hrest with hsame | ⟨rfl, hnext⟩
    · exact hsame
    · rw [Branches.connects_of_getElem? hbranch] at hwas
      rw [Branches.writesAt_of_getElem? hbranch]
      exact hc.writes_of_sendMove hwas hmove hnext
  | done =>
    rcases Branches.writesAt_set hrest with hsame | ⟨-, hnone⟩
    · exact hsame
    · cases hnone

theorem writesAt_of_move (hc : HungUp c) (hwas : c.tasks[strand.task]? = some was)
    (hmove : Move strand c d was more now) {branch : Nat} (hnow : now.writesAt branch = true) :
    was.writesAt branch = true := by
  have hdialing := hc.not_dialing hwas
  have hfresh : freshBranches.writesAt branch = false := by
    unfold freshBranches Branches.writesAt
    rw [List.getElem?_map]
    cases updateCommands[branch]? <;> rfl
  cases hmove with
  | receive hmove => cases hmove <;> cases hnow
  | refresh hmove =>
    cases hmove with
    | update => cases hfresh.symm.trans hnow
    | updating hmove => exact hc.writesAt_of_updateMove (hdialing _) hmove hnow
    | _ => cases hnow
  | call hmove =>
    cases hmove with
    | begin hmove =>
      cases hmove with
      | update => cases hfresh.symm.trans hnow
      | _ => cases hnow
    | sending hmove | requesting hmove => exact hc.writes_of_sendMove (ne_of_soleBranch (hdialing 0)) hmove hnow
    | updating hmove => exact hc.writesAt_of_updateMove (hdialing _) hmove hnow
    | _ => cases hnow

/-- Whoever has the link after an action had it before. -/
theorem writesAt_perform? (hc : HungUp c) (h : c.perform? action = some d) (hwrites : d.writesAt strand = true) :
    c.writesAt strand = true := by
  obtain ⟨state, hstate, hstrand⟩ := (Option.any_eq_true _ _).mp hwrites
  rcases task_perform?_cases h hstate with hsame | ⟨hidle, -⟩ | ⟨mover, turn, was, more, -, htask, hwas, hmove⟩
  · exact (writesAt_of_task hsame).trans hstrand
  · cases (Task.writesAt_of_isIdle hidle strand.branch).symm.trans hstrand
  · rw [writesAt_of_task hwas]
    exact hc.writesAt_of_move (htask ▸ hwas) hmove hstrand

/-! ## The link stays down -/

theorem effects_perform? (hc : HungUp c) (h : c.perform? action = some d) :
    ∃ more, d.effects = c.effects ++ more ∧ ∀ effect ∈ more, c.Outlives effect := by
  rcases move_of_perform? h with hadds | ⟨strand, turn, was, more, now, -, hwas, hmove, hreaches⟩
  · exact ⟨[], hadds.effects_eq, fun _ hmem => absurd hmem List.not_mem_nil⟩
  · exact ⟨more, hreaches.adds.effects_eq, hc.effects_of_move hwas hmove⟩

/-- A client that has hung up stays so. -/
theorem perform? (hc : HungUp c) (h : c.perform? action = some d) : HungUp d := by
  refine ⟨orderly_perform? h hc.orderly, hc.prompt.perform? h, ?_, Bool.eq_false_iff.mpr fun hup => ?_⟩
  · rw [(closing_of_perform? h).1, hc.closed, Bool.true_or]
  · obtain ⟨more, hmore, hdialed⟩ := (step_of_perform? h).dialed_of_up hc.orderly hc.down hup
    obtain ⟨more', hmore', hquiet⟩ := hc.effects_perform? h
    obtain rfl : more = more' := List.append_cancel_left (hmore.symm.trans hmore')
    cases (hquiet _ hdialed).quiet rfl

end HungUp

/-- The client `d` comes after `c`, which has hung up: the link has not come up again, only dials that connected before
have been let known, and only those have written that had the link before. -/
structure Silence (c : Client) (more : List Effect) (d : Client) : Prop where
  hungUp : HungUp d
  effects_eq : d.effects = c.effects ++ more
  quiet : ∀ effect ∈ more, effect.aboutLink = true → effect = .notified .connected
  wrote : ∀ writer line, .wrote writer line ∈ more → c.writesAt writer = true
  writes : ∀ strand, d.writesAt strand = true → c.writesAt strand = true
  alarm_eq : d.alarm = c.alarm
  settings_eq : d.settings = c.settings

/-- No line is read from a link that is down. -/
theorem lineReadAt?_of_down {link : Link} (h : link.up = false) (turn : Turn) (place : ReceivePlace) :
    lineReadAt? turn place link = none := by
  unfold lineReadAt?
  split
  next number =>
    cases hread : link.read? number with
    | none => rfl
    | some read =>
      obtain ⟨after, outcome⟩ := read
      obtain ⟨-, hup, ⟨-, hstill, -⟩ | ⟨rfl, -⟩⟩ := Link.read?_cases hread
      · rw [h, or_self] at hup
        cases hup.symm.trans hstill
      · rfl
  next => rfl

theorem lineRead?_of_down (h : c.link.up = false) (action : ClientAction) : c.lineRead? action = none := by
  unfold lineRead?
  split
  next =>
    split
    next => exact lineReadAt?_of_down h _ _
    next => rfl
  next => rfl

theorem HungUp.silence (hc : HungUp c) (h : c.perform? action = some d) : ∃ more, c.Silence more d := by
  obtain ⟨more, hmore, hquiet⟩ := hc.effects_perform? h
  have hoverlook := outlook_of_perform? h
  rw [lineRead?_of_down hc.down] at hoverlook
  refine ⟨more, hc.perform? h, hmore, fun effect heffect => (hquiet effect heffect).quiet, fun writer line hwrote =>
    (hquiet _ hwrote).wrote writer line rfl, fun strand => hc.writesAt_perform? h, ?_,
    congrArg Prod.fst (habits_perform? h)⟩
  split at hoverlook
  next => exact congrArg Outlook.alarm hoverlook
  next => exact congrArg Outlook.alarm hoverlook

namespace Silence

variable {first second : List Effect}

theorem refl (hc : HungUp c) : c.Silence [] c where
  hungUp := hc
  effects_eq := (List.append_nil _).symm
  quiet _ hmem := absurd hmem List.not_mem_nil
  wrote _ _ hmem := absurd hmem List.not_mem_nil
  writes _ := id
  alarm_eq := rfl
  settings_eq := rfl

theorem trans (hcd : c.Silence first d) (hde : d.Silence second e) : c.Silence (first ++ second) e where
  hungUp := hde.hungUp
  effects_eq := by rw [hde.effects_eq, hcd.effects_eq, List.append_assoc]
  quiet effect heffect := (List.mem_append.mp heffect).elim (hcd.quiet effect) (hde.quiet effect)
  wrote writer line hwrote := (List.mem_append.mp hwrote).elim (hcd.wrote writer line) fun hlater =>
    hcd.writes writer (hde.wrote writer line hlater)
  writes strand hwrites := hcd.writes strand (hde.writes strand hwrites)
  alarm_eq := hde.alarm_eq.trans hcd.alarm_eq
  settings_eq := hde.settings_eq.trans hcd.settings_eq

end Silence

/-! ## Histories -/

/-- Every call that closes the client has closed it in its first step, and hung up in its second. -/
def ClosesFirst (c : Client) : Prop :=
  ∀ (task : Nat) (state : Task), c.tasks[task]? = some state → state.role = .call .close → state ≠ .call .close .fresh →
    c.closed = true ∧ (state ≠ .call .close .hangingUp → c.link.up = false)

theorem closesFirst_new (settings : ClientSettings) (handlers : Handlers) (link : Link) :
    ClosesFirst (new settings handlers link) := by
  intro task state hstate
  cases hstate

/-- The first step of a call is its own turn. -/
theorem turn_of_fresh {call : Call} (h : c.go? strand turn = some d)
    (hwas : c.tasks[strand.task]? = some (.call call .fresh)) : turn = .own := by
  obtain ⟨-, hstep⟩ := go?_call h hwas rfl
  cases turn with
  | own => rfl
  | link | signal => cases hstep

theorem ClosesFirst.perform? (hcloses : ClosesFirst c)
    (horder : Orderly c.connectLock fun strand => c.connectAt strand) (hprompt : Prompt c) (hknown : c.HandlesKnown)
    (h : c.perform? action = some d) : ClosesFirst d := by
  intro task state hstate hcall hfresh
  have hclosed := (closing_of_perform? h).1
  have hstays (hclosed : c.closed = true) (hdown : c.link.up = false) : d.link.up = false :=
    (HungUp.perform? ⟨horder, hprompt, hclosed, hdown⟩ h).down
  rcases call_perform?_cases h hknown hstate hcall with hsame | hnew | ⟨strand, turn, was, rfl, rfl, hwas, hwasCall⟩
  · obtain ⟨hbefore, hdown⟩ := hcloses task state hsame hcall hfresh
    refine ⟨by rw [hclosed, hbefore, Bool.true_or], fun hpast => hstays hbefore (hdown hpast)⟩
  · exact absurd hnew hfresh
  · obtain ⟨more, hmove, hreaches⟩ := move_of_go?_of_tasks h hwas hstate
    by_cases hfirst : was = .call .close .fresh
    · -- The step that closes the client leads to the one that hangs up.
      subst hfirst
      obtain rfl := turn_of_fresh h hwas
      have hbegins : c.beginsClose (.go strand .own) = true := by simp [beginsClose, hwas]
      refine ⟨by rw [hclosed, hbegins, Bool.or_true], fun hpast => absurd ?_ hpast⟩
      cases hmove with
      | call hmove =>
        cases hmove with
        | begin hmove =>
          cases hmove with
          | close => rfl
          | launch _ hother => rcases hother with hother | hother <;> cases hother
          | send _ hneeds | ask _ _ _ _ hneeds | refuse _ hneeds => cases hneeds
    · obtain ⟨hbefore, hdown⟩ := hcloses strand.task was hwas hwasCall hfirst
      refine ⟨by rw [hclosed, hbefore, Bool.true_or], fun hpast => ?_⟩
      by_cases hhangs : was = .call .close .hangingUp
      · subst hhangs
        cases hmove with
        | call hmove =>
          cases hmove with
          | hangUp hdown => exact hdown
      · exact hstays hbefore (hdown hhangs)

variable {settings : ClientSettings} {handlers : Handlers} {link : Link} {actions : List ClientAction}

/-- After every history with dials that take no time, nobody is in a dial, and every call that closes the client
has hung up in its second step. -/
theorem prompt_of_performAll? (hlink : link.dialsSuspend = false)
    (h : (new settings handlers link).performAll? actions = some c) : Prompt c ∧ ClosesFirst c := by
  refine (performAll?_new_induction
    (P := fun c => (Orderly c.connectLock fun strand => c.connectAt strand) ∧ Prompt c ∧ ClosesFirst c) h
    ⟨.free, prompt_new settings handlers hlink, closesFirst_new settings handlers link⟩ ?_).2
  rintro action c d ⟨horder, hprompt, hcloses⟩ hknown hstep
  exact ⟨orderly_perform? hstep horder, hprompt.perform? hstep, hcloses.perform? horder hprompt hknown hstep⟩

/-- A client has hung up once a call that closes it is over. -/
theorem hungUp_of_closed {task : Nat} (hlink : link.dialsSuspend = false)
    (h : (new settings handlers link).performAll? actions = some c)
    (hrole : c.roleAt task = some (.call .close)) (hover : c.isOver task = true) : HungUp c := by
  obtain ⟨hprompt, hcloses⟩ := prompt_of_performAll? hlink h
  obtain ⟨state, hstate, hcall⟩ := Option.map_eq_some_iff.mp hrole
  rw [isOver_of_task hstate] at hover
  have hpast (place : CallPlace) : state ≠ .call .close place := by
    rintro rfl
    cases hover
  obtain ⟨hclosed, hdown⟩ := hcloses task state hstate hcall (hpast _)
  exact ⟨orderly_of_performAll? h, hprompt, hclosed, hdown (hpast _)⟩

theorem silence_of_performAll? (hc : HungUp c) (h : c.performAll? actions = some d) :
    ∃ more, c.Silence more d := by
  refine performAll?_induction (P := fun d => ∃ more, c.Silence more d) ?_ h ⟨[], .refl hc⟩
  rintro action d e ⟨first, hfirst⟩ he
  obtain ⟨second, hsecond⟩ := hfirst.hungUp.silence he
  exact ⟨first ++ second, hfirst.trans hsecond⟩

end Client

end AlarmPanel
