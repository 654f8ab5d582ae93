import AlarmPanel.Proofs.Circuit.Dials
import AlarmPanel.Proofs.Circuit.Turns

/-!
# The record of the dials

When dials begin and how they end is on record in the log (`Client.dialLog`). Only the holder of the connect lock adds
to it, by a step of connecting (`Client.exists_move_of_dial`), so while somebody holds the lock the record and the
place of the holder change by the holder's own steps alone (`Client.others_perform?`). And whoever pauses is not
passed over by time (`Client.now_le_of_pausing`).
-/

namespace AlarmPanel

/-- Whether an effect is the beginning or the end of a dial. -/
def Effect.isDial : Effect → Bool
  | .dialing _ | .dialed _ => true
  | _ => false

theorem Effect.isDial_of_aboutLink {effect : Effect} (h : effect.aboutLink = false) : effect.isDial = false := by
  cases effect with
  | dialing | dialed => cases h
  | closedLink | wrote | called | notified => rfl

theorem mem_filter_isDial {outcome : DialOutcome} {effects : List Effect} (h : .dialed outcome ∈ effects) :
    .dialed outcome ∈ effects.filter Effect.isDial :=
  List.mem_filter.mpr ⟨h, rfl⟩

/-- Whether a strand that stands here tries to bring the link up: it looks at it, dials, or pauses in between. -/
def ConnectPlace.tries : ConnectPlace → Bool
  | .checking | .dialing | .pausing _ => true
  | .asking | .queued | .announcing => false

theorem ConnectPlace.ne_of_tries {here there : ConnectPlace} (h : here.tries = true) (hthere : there.tries = false) :
    here ≠ there := by
  rintro rfl
  cases h.symm.trans hthere

/-- Whether an entry of the log is about the beginning of a dial. -/
def LogEntry.beginsDial (entry : LogEntry) : Bool := entry.effect matches .dialing _

/-- Every attempt is the end of a dial. -/
theorem Effect.filterMap_attempt?_filter (effects : List Effect) :
    (effects.filter isDial).filterMap attempt? = effects.filterMap attempt? := by
  have hsame : (fun effect => if isDial effect then attempt? effect else none) = attempt? := by
    funext effect
    cases effect <;> rfl
  rw [List.filterMap_filter, hsame]

namespace Circuit

open Relation

variable {k l : Circuit} {strand mover : Strand} {action : ClientAction}

/-- What has been recorded of dials. -/
def dialEffects (k : Circuit) : List Effect := k.effects.filter Effect.isDial

theorem Aside.dialEffects_eq (h : k.Aside l) : l.dialEffects = k.dialEffects := by
  cases h with
  | @record effects hquiet =>
    have hnone : effects.filter Effect.isDial = [] :=
      List.filter_eq_nil_iff.mpr fun effect heffect => by
        rw [Effect.isDial_of_aboutLink (hquiet effect heffect)]
        exact Bool.false_ne_true
    rw [dialEffects, Circuit.record, List.filter_append, hnone, List.append_nil, dialEffects]
  | lose => simp [dialEffects, Circuit.record, setReceiver, Effect.isDial]
  | fall | hear | begin | giveUp | launch | read => rfl

/-- What is done beside connecting is no dial. -/
theorem asides_dialEffects (h : ReflTransGen Aside k l) : l.dialEffects = k.dialEffects :=
  asides_induction (P := fun m => m.dialEffects = k.dialEffects) (fun haside hm => haside.dialEffects_eq.trans hm) h rfl

/-- Nobody makes a step of connecting who does not see to the link. -/
theorem Connect.places_ne_none (h : k.Connect strand l) : k.places strand ≠ none := by
  cases h with
  | ask hplace | enter hplace | hangUp hplace | dial hplace | announce hplace | wake hplace | leave hplace =>
    rw [hplace]
    exact nofun
  | fail _ hdials | succeed hdials =>
    rcases hdials with ⟨hplace, -⟩ | ⟨hplace, -, -⟩ <;> rw [hplace] <;> exact nofun

/-- Only who sees to the link dials, and not who has only to make it known. -/
theorem dialEffects_of_step (h : k.Step action l) (hk : Orderly k.lock k.places)
    (hnowhere : ∀ strand turn, action = .go strand turn →
      k.places strand = none ∨ k.places strand = some .announcing) : l.dialEffects = k.dialEffects := by
  cases h with
  | @go strand _ turn hgoes =>
    rcases hgoes.connect_or_asides hk with ⟨m, hconnect, hasides, -, -⟩ | ⟨-, hasides⟩
    · rcases hnowhere strand turn rfl with hnone | hannounces
      · exact absurd hnone hconnect.places_ne_none
      · obtain rfl := hconnect.eq_of_announcing hannounces
        exact (asides_dialEffects hasides).trans (by simp [dialEffects, record, put, Effect.isDial])
    · exact asides_dialEffects hasides
  | call => rfl
  | link _ hlink => rcases hlink with rfl | rfl <;> rfl
  | pass => rfl

/-- Whatever others do, nobody but the holder of the lock dials, and the holder stays where it is or is ended. -/
theorem others_step (hk : Orderly k.lock k.places) (h : k.Step action l) (hholds : k.lock.holder = some strand)
    (hother : ∀ turn, action ≠ .go strand turn) :
    l.dialEffects = k.dialEffects ∧
      (l.places strand = k.places strand ∨ l.places strand = none ∨ l.places strand = some .asking) := by
  obtain ⟨m, ⟨heffects, -, hplace, -⟩, hasides⟩ := h.others hk hholds hother
  rw [← hplace]
  have hdials : m.dialEffects = k.dialEffects := congrArg (List.filter Effect.isDial) heffects
  exact ⟨(asides_dialEffects hasides).trans hdials, asides_places hasides strand⟩

end Circuit

namespace Task

variable {task : Task} {branch wake : Nat}

theorem mem_connects_of_connectAt {place : ConnectPlace} (h : task.connectAt branch = some place) :
    place ∈ task.connects := by
  have hsend {send : SendPlace} (h : soleBranch send.connectPlace? branch = some place) :
      place ∈ [send].filterMap SendPlace.connectPlace? := by
    rw [SendPlace.eq_of_connectPlace? (soleBranch_eq_some h).2]
    exact List.mem_singleton_self place
  have hbranches {branches : Branches} (h : branches.connects branch = some place) :
      place ∈ (branches.filterMap id).filterMap SendPlace.connectPlace? := by
    have hmem := List.mem_of_getElem? (Branches.getElem?_of_connects h).1
    exact List.mem_filterMap.mpr ⟨_, List.mem_filterMap.mpr ⟨_, hmem, rfl⟩, rfl⟩
  cases task with
  | receive here =>
    cases here with
    | connecting here => exact List.mem_singleton.mpr (Option.some.inj (soleBranch_eq_some h).2).symm
    | fresh | reading => cases h
  | refresh here =>
    cases here with
    | updating branches => exact hbranches h
    | fresh | resting => cases h
  | call call here =>
    cases here with
    | connecting here => exact List.mem_singleton.mpr (Option.some.inj (soleBranch_eq_some h).2).symm
    | sending line send => exact hsend h
    | requesting slot command patience line send => exact hsend h
    | updating branches => exact hbranches h
    | _ => cases h
  | _ => cases h

/-- Whoever pauses waits for the end of the pause. -/
theorem mem_deadlines_of_connectAt (h : task.connectAt branch = some (.pausing wake)) : wake ∈ task.deadlines := by
  unfold deadlines
  dsimp only
  split
  next => cases h
  next => cases h
  next => cases h
  next => cases h
  next => exact List.mem_filterMap.mpr ⟨_, mem_connects_of_connectAt h, rfl⟩

end Task

namespace Client

variable {c d : Client} {strand : Strand} {action : ClientAction} {more : List Effect} {here : ConnectPlace}
  {wake : Nat}

/-- The beginnings and the ends of dials, the earliest first. -/
def dialLog (c : Client) : List LogEntry := c.log.reverse.filter fun entry => entry.effect.isDial

theorem dialLog_perform? (h : c.perform? action = some d) (hmore : d.effects = c.effects ++ more) :
    d.dialLog = c.dialLog ++ (more.filter Effect.isDial).map (⟨c.now, ·⟩) := by
  rw [dialLog, log_of_perform? h hmore, List.reverse_append, List.reverse_reverse, List.filter_append, List.filter_map]
  rfl

/-- As many dials have begun as are on record. -/
theorem dials_eq_countP (c : Client) : c.dials = c.dialLog.countP LogEntry.beginsDial := by
  rw [dials, dialLog, List.countP_filter, List.countP_reverse]
  refine List.countP_congr fun entry _ => ?_
  unfold LogEntry.beginsDial
  cases entry.effect <;> simp [Effect.isDial]

theorem attempts_perform? (hmore : d.effects = c.effects ++ more) :
    d.attempts = c.attempts ++ (more.filter Effect.isDial).filterMap Effect.attempt? := by
  rw [attempts_append hmore, Effect.filterMap_attempt?_filter]

theorem failuresInRow_of_fails (hmore : d.effects = c.effects ++ more)
    (hfails : more.filterMap Effect.attempt? = [.fails]) : d.failuresInRow = c.failuresInRow + 1 := by
  rw [failuresInRow, attempts_append hmore, hfails, Backoff.failuresInRow_concat]
  rfl

theorem failuresInRow_of_succeeds (hmore : d.effects = c.effects ++ more)
    (hsucceeds : more.filterMap Effect.attempt? = [.succeeds]) : d.failuresInRow = 0 := by
  rw [failuresInRow, attempts_append hmore, hsucceeds, Backoff.failuresInRow_concat]

theorem failuresInRow_of_no_dial (hmore : d.effects = c.effects ++ more) (hnone : more.filter Effect.isDial = []) :
    d.failuresInRow = c.failuresInRow := by
  rw [failuresInRow, attempts_perform? hmore, hnone, List.filterMap_nil, List.append_nil]
  rfl

/-- While a strand holds the lock, others do not dial, and leave the strand where it is or end it. -/
theorem others_perform? (hk : Orderly c.connectLock fun strand => c.connectAt strand)
    (h : c.perform? action = some d) (hmore : d.effects = c.effects ++ more)
    (hholds : c.connectLock.holder = some strand) (hother : ∀ turn, action ≠ .go strand turn) :
    more.filter Effect.isDial = [] ∧
      (d.connectAt strand = c.connectAt strand ∨ d.connectAt strand = none ∨ d.connectAt strand = some .asking) := by
  obtain ⟨hdials, hplace⟩ := Circuit.others_step hk (step_of_perform? h) hholds hother
  refine ⟨?_, hplace⟩
  have hsame : d.effects.filter Effect.isDial = c.effects.filter Effect.isDial := hdials
  rw [hmore, List.filter_append] at hsame
  exact List.append_right_eq_self.mp hsame

/-- The move of a strand that sees to the link, and has not only to make it known. -/
theorem exists_move_of_connectAt {turn : Turn} (hplace : c.connectAt strand = some here)
    (hannounces : here ≠ .announcing) (h : c.go? strand turn = some d) :
    ∃ more next, d.effects = c.effects ++ more ∧ ConnectMove strand c here more next ∧
      d.connectAt strand = next.place? := by
  obtain ⟨after, hstep, hgoes⟩ := exists_goesOn_of_go? hplace hannounces h
  obtain ⟨more, hmove, hadds⟩ := connectMove_of_connectStep? hstep
  exact ⟨more, after.2, hgoes.effects_eq.trans hadds.effects_eq, hmove, hgoes.connectAt_eq⟩

/-- Whoever dials sees to the link, and stands afterwards where its dial has led it. -/
theorem exists_move_of_dial (hk : Orderly c.connectLock fun strand => c.connectAt strand)
    (h : c.perform? action = some d) (hmore : d.effects = c.effects ++ more) (hdial : more.filter Effect.isDial ≠ []) :
    ∃ strand turn here next, action = .go strand turn ∧ c.connectAt strand = some here ∧
      ConnectMove strand c here more next ∧ d.connectAt strand = next.place? := by
  by_cases hsees : ∃ strand turn here, action = .go strand turn ∧ c.connectAt strand = some here ∧ here ≠ .announcing
  · obtain ⟨strand, turn, here, rfl, hplace, hannounces⟩ := hsees
    obtain ⟨more', next, hmore', hmove, hnext⟩ := exists_move_of_connectAt hplace hannounces h
    obtain rfl : more = more' := List.append_cancel_left (hmore.symm.trans hmore')
    exact ⟨strand, turn, here, next, rfl, hplace, hmove, hnext⟩
  · have hsame : d.effects.filter Effect.isDial = c.effects.filter Effect.isDial := by
      refine Circuit.dialEffects_of_step (step_of_perform? h) hk fun strand turn haction => ?_
      by_contra hplace
      obtain ⟨hnone, hannounces⟩ := not_or.mp hplace
      obtain ⟨here, hhere⟩ := Option.ne_none_iff_exists'.mp hnone
      exact hsees ⟨strand, turn, here, haction, hhere, fun heq => hannounces (heq ▸ hhere)⟩
    rw [hmore, List.filter_append] at hsame
    exact absurd (List.append_right_eq_self.mp hsame) hdial

/-! ## Dials that connect -/

/-- What a strand has done that has made a dial which connects. -/
theorem ConnectMove.connects {next : Next ConnectPlace (Except Error Unit)}
    (hmove : ConnectMove strand c here more next) (h : .dialed .connected ∈ more) :
    ∃ begun, (here = .dialing ∧ begun = [] ∨ here = .checking ∧ begun = [.dialing strand]) ∧
      more = begun ++ [.dialed .connected] ∧ next = .place .announcing := by
  cases hmove with
  | @connect _ begun hdials =>
    exact ⟨begun, hdials.imp id fun ⟨hhere, _, hbegun⟩ => ⟨hhere, hbegun⟩, rfl, rfl⟩
  | fail hdials hfails =>
    rcases hdials with ⟨-, rfl⟩ | ⟨-, -, rfl⟩
    · cases List.mem_singleton.mp h
      exact absurd rfl hfails
    · rcases List.mem_cons.mp h with hdialing | hdialed
      · cases hdialing
      · cases List.mem_singleton.mp hdialed
        exact absurd rfl hfails
  | hangUp | dial | announce => cases List.mem_singleton.mp h
  | _ => cases h

/-- What happens while a strand tries to bring the link up: it makes a move, or others do not dial and leave it where
it is, unless they end it. -/
theorem tries_perform?_cases (hk : Orderly c.connectLock fun strand => c.connectAt strand)
    (h : c.perform? action = some d) (hmore : d.effects = c.effects ++ more) (hplace : c.connectAt strand = some here)
    (htries : here.tries = true) :
    (∃ turn next, action = .go strand turn ∧ ConnectMove strand c here more next ∧
        d.connectAt strand = next.place?) ∨
      more.filter Effect.isDial = [] ∧
        (d.connectAt strand = some here ∨ d.connectAt strand = none ∨ d.connectAt strand = some .asking) := by
  by_cases hown : ∃ turn, action = .go strand turn
  · obtain ⟨turn, rfl⟩ := hown
    obtain ⟨more', next, hmore', hmove, hnext⟩ := exists_move_of_connectAt hplace (here.ne_of_tries htries rfl) h
    obtain rfl : more = more' := List.append_cancel_left (hmore.symm.trans hmore')
    exact .inl ⟨turn, next, rfl, hmove, hnext⟩
  · have hholds : c.connectLock.holder = some strand :=
      hk.holder_of_inside hplace (here.ne_of_tries htries rfl) (here.ne_of_tries htries rfl)
    rw [← hplace]
    exact .inr (others_perform? hk h hmore hholds fun turn hturn => hown ⟨turn, hturn⟩)

/-- Time does not pass over the end of a pause. -/
theorem now_le_of_pausing {millis : Nat} (h : c.perform? (.pass millis) = some d)
    (hplace : c.connectAt strand = some (.pausing wake)) : d.now ≤ wake := by
  obtain ⟨hpass, hd⟩ := Option.ite_none_right_eq_some.mp h
  obtain ⟨was, hwas, hat⟩ := Option.bind_eq_some_iff.mp hplace
  have hmem : wake ∈ c.deadlines :=
    List.mem_flatMap.mpr ⟨was, List.mem_of_getElem? hwas, Task.mem_deadlines_of_connectAt hat⟩
  have hall := List.all_eq_true.mp ((Bool.and_eq_true _ _).mp hpass).2 wake hmem
  cases hd
  exact of_decide_eq_true hall

end Client

end AlarmPanel
