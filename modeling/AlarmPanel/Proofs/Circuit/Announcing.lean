import AlarmPanel.Proofs.Circuit.Notices
import AlarmPanel.Proofs.Circuit.Places
import AlarmPanel.Proofs.Client.Chronicle

/-!
# Making a dial known

Between a dial that connects and the notice of it the strand that dialled has a place of its own. It holds the
connect lock, so that nobody else gets any further, and no time passes. It makes the link known in its next step,
unless it is cut off before with the rest of its task (`Client.Announcing`): another strand of the task fails, or a
call that closes the client ends the task. So the dials that have connected are those that have been made known,
those whose strands have been cut off, and one at most that is still to be made known
(`Client.connections_performAll?`).
-/

namespace AlarmPanel

namespace Circuit

open Relation

variable {k l m : Circuit} {strand mover : Strand} {action : ClientAction}

/-! ## What others do while a strand holds the lock -/

/-- A strand that does not hold the lock can only ask for it. -/
theorem Connect.eq_of_other (h : k.Connect mover l) (hk : Orderly k.lock k.places)
    (hholds : k.lock.holder = some strand) (hother : mover ≠ strand) :
    l = { k with lock := k.lock.ask mover }.put mover (some .queued) := by
  have hnot (hmover : k.lock.holder = some mover) : False :=
    hother (Option.some.inj (hmover.symm.trans hholds))
  cases h with
  | ask => rfl
  | enter _ hmover | hangUp _ hmover => exact (hnot hmover).elim
  | dial hplace | announce hplace | wake hplace => exact (hnot (hk.holder_of_inside hplace nofun nofun)).elim
  | fail _ hdials | succeed hdials => exact (hnot (hdials.holder hk)).elim
  | leave hplace hasks _ hqueued =>
    exact (hnot (hk.holder_of_leave hplace hasks fun h => (hqueued h).1)).elim

theorem Aside.places_cases (h : k.Aside l) (strand : Strand) :
    l.places strand = k.places strand ∨ l.places strand = none ∨ l.places strand = some .asking := by
  cases h with
  | @begin task _ _ hplaces =>
    by_cases htask : strand.task = task
    · exact .inr ((hplaces strand.branch).imp (if_pos htask).trans (if_pos htask).trans)
    · exact .inl (if_neg htask)
  | giveUp task =>
    by_cases htask : strand.task = task
    · exact .inr (.inl (if_pos htask))
    · exact .inl (if_neg htask)
  | fall | hear | record | launch | read | lose => exact .inl rfl

/-- What is done beside connecting leaves whoever sees to the link where it is, or ends it. -/
theorem asides_places (h : ReflTransGen Aside k l) (strand : Strand) :
    l.places strand = k.places strand ∨ l.places strand = none ∨ l.places strand = some .asking := by
  refine asides_induction (P := fun m => m.places strand = k.places strand ∨ m.places strand = none ∨
    m.places strand = some .asking) (fun haside hm => ?_) h (.inl rfl)
  rcases haside.places_cases strand with hsame | hgone
  · rwa [hsame]
  · exact .inr hgone

/-- Nobody comes to have a dial to make known by it. -/
theorem places_of_asides (h : ReflTransGen Aside k l) (hplace : l.places strand = some .announcing) :
    k.places strand = some .announcing := by
  rcases asides_places h strand with hsame | hgone | hgone
  · exact hsame.symm.trans hplace
  · cases hgone.symm.trans hplace
  · cases hgone.symm.trans hplace

/-- Whatever others do while a strand holds the lock, they leave it where it is, or end it. -/
theorem Step.others (h : k.Step action l) (hk : Orderly k.lock k.places) (hholds : k.lock.holder = some strand)
    (hother : ∀ turn, action ≠ .go strand turn) :
    ∃ m, (m.effects = k.effects ∧ m.number = k.number ∧ m.places strand = k.places strand ∧
      ∀ other, m.places other = k.places other ∨ m.places other = some .queued) ∧ ReflTransGen Aside m l := by
  cases h with
  | @go mover _ turn hgoes =>
    have hne : mover ≠ strand := fun hsame => hother turn (hsame ▸ rfl)
    rcases hgoes.connect_or_asides hk with ⟨m, hconnect, hasides, -, -⟩ | ⟨-, hasides⟩
    · have hm := hconnect.eq_of_other hk hholds hne
      subst hm
      refine ⟨{ k with lock := k.lock.ask mover }.put mover (some .queued),
        ⟨rfl, rfl, places_put_of_ne hne.symm _ _, fun other => ?_⟩, hasides⟩
      by_cases hsame : other = mover
      · subst hsame
        exact .inr (places_put_self ..)
      · exact .inl (places_put_of_ne hsame _ _)
    · exact ⟨k, ⟨rfl, rfl, rfl, fun _ => .inl rfl⟩, hasides⟩
  | call => exact ⟨k, ⟨rfl, rfl, rfl, fun _ => .inl rfl⟩, .refl⟩
  | link _ hlink =>
    refine ⟨k, ⟨rfl, rfl, rfl, fun _ => .inl rfl⟩, ?_⟩
    rcases hlink with rfl | rfl
    · exact .refl
    · exact .single .fall
  | pass _ silent => exact ⟨{ k with silent }, ⟨rfl, rfl, rfl, fun _ => .inl rfl⟩, .refl⟩

/-! ## Counts -/

/-- What a step does to the number of dials that have connected, and to that of their notices. -/
inductive Counts (k l : Circuit) : Prop
  | same (hnumber : l.number = k.number) (hconnects : connects l.effects = connects k.effects)
      (hups : ups l.effects = ups k.effects) (hannounces : l.announces = true → k.announces = true)
  | dialled (hnumber : l.number = k.number + 1) (hconnects : connects l.effects = connects k.effects + 1)
      (hups : ups l.effects = ups k.effects) (hbefore : k.announces = false) (hannounces : l.announces = true)
  | told (hnumber : l.number = k.number) (hconnects : connects l.effects = connects k.effects)
      (hups : ups l.effects = ups k.effects + 1) (hannounces : k.announces = true) (hafter : l.announces = false)

theorem Shift.counts (h : k.Shift l) : k.Counts l := by
  cases h with
  | quiet more _ hnumber _ hannounces _ heffects hmore =>
    exact .same hnumber (by simp [heffects, connects_eq_zero hmore]) (by simp [heffects, ups_eq_zero hmore]) hannounces
  | succeed _ hnumber hbefore hannounces _ heffects hbegun =>
    exact .dialled hnumber (by simp [heffects, connects_eq_zero hbegun]) (by simp [heffects, ups_eq_zero hbegun])
      hbefore hannounces
  | announce _ hnumber _ hannounces hafter _ heffects =>
    exact .told hnumber (by simp [heffects]) (by simp [heffects]) hannounces hafter
  | launch _ hl | read _ _ _ hl =>
    subst hl
    exact .same rfl rfl rfl id
  | lose _ _ hl =>
    subst hl
    exact .same rfl (by simp [setReceiver, record]) (by simp [setReceiver, record]) id

/-- No aside makes a dial, or makes one known. -/
theorem Aside.counts_eq (h : k.Aside l) :
    connects l.effects = connects k.effects ∧ ups l.effects = ups k.effects := by
  cases h with
  | record hquiet =>
    have hmore := fun effect heffect => Effect.tells_of_aboutLink (hquiet effect heffect)
    simp [Circuit.record, connects_eq_zero hmore, ups_eq_zero hmore]
  | lose => simp [setReceiver, Circuit.record]
  | fall | hear | begin | giveUp | launch | read => exact ⟨rfl, rfl⟩

theorem asides_counts_eq (h : ReflTransGen Aside k l) :
    connects l.effects = connects k.effects ∧ ups l.effects = ups k.effects :=
  asides_induction (P := fun m => connects m.effects = connects k.effects ∧ ups m.effects = ups k.effects)
    (fun haside hm => ⟨haside.counts_eq.1.trans hm.1, haside.counts_eq.2.trans hm.2⟩) h ⟨rfl, rfl⟩

theorem asides_announces (h : ReflTransGen Aside k l) (hk : Orderly k.lock k.places) (hl : l.announces = true) :
    k.announces = true :=
  announces_of_places hk (asides_orderly h hk) (fun _ => places_of_asides h) hl

/-- Asides after a step that nobody has to make known. -/
theorem Counts.asides (h : k.Counts m) (hasides : ReflTransGen Aside m l) (hm : Orderly m.lock m.places)
    (hquiet : l = m ∨ m.announces = false) : k.Counts l := by
  rcases hquiet with rfl | hquiet
  · exact h
  have hnumber := asides_number hasides
  obtain ⟨hconnects, hups⟩ := asides_counts_eq hasides
  have hannounces := asides_announces hasides hm
  cases h with
  | same hsame hsame' hsame'' hbefore =>
    exact .same (hnumber.trans hsame) (hconnects.trans hsame') (hups.trans hsame'') fun hl => hbefore (hannounces hl)
  | dialled _ _ _ _ hafter => cases hquiet.symm.trans hafter
  | told hsame hsame' hnext hbefore _ =>
    refine .told (hnumber.trans hsame) (hconnects.trans hsame') (hups.trans hnext) hbefore
      (Bool.eq_false_iff.mpr fun hl => ?_)
    cases hquiet.symm.trans (hannounces hl)

theorem Step.counts (h : k.Step action l) (hk : Orderly k.lock k.places) : k.Counts l := by
  have hsame {m : Circuit} (hasides : ReflTransGen Aside k m) : k.Counts m := by
    obtain ⟨hconnects, hups⟩ := asides_counts_eq hasides
    exact .same (asides_number hasides) hconnects hups (asides_announces hasides hk)
  cases h with
  | go turn hgoes =>
    rcases hgoes.connect_or_asides hk with ⟨m, hconnect, hasides, -, hends⟩ | ⟨-, hasides⟩
    · have hm := hconnect.orderly hk
      refine (hconnect.shift hk).counts.asides hasides hm (hends.imp id fun hthrough => ?_)
      exact announces_eq_false hm (hconnect.quiet_of_through hk hthrough)
    · exact hsame hasides
  | call => exact hsame .refl
  | link _ hlink =>
    rcases hlink with rfl | rfl
    · exact hsame .refl
    · exact hsame (.single .fall)
  | pass => exact .same rfl rfl rfl id

/-! ## Who dials, and who makes it known -/

/-- A dial that connects leaves its strand with the dial to make known. -/
theorem Step.dialler (h : k.Step action l) (hk : Orderly k.lock k.places)
    (hne : connects l.effects ≠ connects k.effects) :
    ∃ strand turn, action = .go strand turn ∧ l.places strand = some .announcing := by
  cases h with
  | @go strand _ turn hgoes =>
    rcases hgoes.connect_or_asides hk with ⟨m, hconnect, hasides, -, hends⟩ | ⟨-, hasides⟩
    · obtain ⟨hsame, -⟩ := asides_counts_eq hasides
      rw [hsame] at hne
      refine ⟨strand, turn, rfl, ?_⟩
      cases hconnect with
      | succeed =>
        rcases hends with rfl | hthrough
        · exact places_put_self ..
        · cases (places_put_self ..).symm.trans hthrough
      | @fail begun outcome _ hdials hfails =>
        have hlast : connects [Effect.dialed outcome] = 0 :=
          connects_eq_zero fun effect heffect => List.mem_singleton.mp heffect ▸ Effect.tells_dialed hfails
        exact absurd (by simp [record, put, connects_eq_zero hdials.begun_tells, hlast]) hne
      | ask | enter | wake | leave => exact absurd rfl hne
      | hangUp | dial | announce => exact absurd (by simp [record, put, connects]) hne
    · exact absurd (asides_counts_eq hasides).1 hne
  | call => exact absurd rfl hne
  | link _ hlink => rcases hlink with rfl | rfl <;> exact absurd rfl hne
  | pass => exact absurd rfl hne

/-- What may become of a strand with a dial to make known: it makes it known and is through, and those who wait
still wait; or somebody else does something, and then it is still about to do so or nobody is. -/
theorem Step.of_announcing (h : k.Step action l) (hk : Orderly k.lock k.places)
    (hplace : k.places strand = some .announcing) :
    (∃ turn rest, action = .go strand turn ∧ l.effects = k.effects ++ .notified .connected :: rest ∧
        (rest = [] ∨ rest = [.notified .disconnected]) ∧ l.places strand = none ∧
        ∀ other, k.places other = some .queued → l.places other = some .queued) ∨
      (∀ turn, action ≠ .go strand turn) ∧ ups l.effects = ups k.effects ∧
        (l.places strand = some .announcing ∨ ∀ other, l.places other ≠ some .announcing) := by
  have hholds : k.lock.holder = some strand := hk.holder_of_inside hplace nofun nofun
  have honly {other : Strand} (hother : k.places other = some .announcing) : other = strand :=
    Option.some.inj ((hk.holder_of_inside hother nofun nofun).symm.trans hholds)
  by_cases hown : ∃ turn, action = .go strand turn
  · obtain ⟨turn, rfl⟩ := hown
    have hwaits (other : Strand) (hother : k.places other = some .queued) : other ≠ strand := by
      rintro rfl
      cases hplace.symm.trans hother
    have hstill {m : Circuit} (hm : m.places = k.places) (other : Strand) (hother : k.places other = some .queued) :
        (m.put strand none).places other = some .queued :=
      (places_put_of_ne (hwaits other hother) none m).trans ((congrFun hm other).trans hother)
    have hgoes : k.Goes strand l := by
      cases h with
      | go _ hgoes => exact hgoes
      | link haction => exact absurd rfl (haction strand turn)
    refine .inl ⟨turn, ?_⟩
    cases hgoes with
    | connect hconnect | read hconnect =>
      obtain rfl := hconnect.eq_of_announcing hplace
      exact ⟨[], rfl, rfl, .inl rfl, places_put_self .., hstill rfl⟩
    | miss _ hconnect =>
      obtain rfl := hconnect.eq_of_announcing hplace
      exact ⟨[.notified .disconnected], rfl, List.append_assoc .., .inr rfl, places_put_self .., hstill rfl⟩
    | finish hconnect _ hdone =>
      obtain rfl := hconnect.eq_of_announcing hplace
      have hsole : k.Sole strand := hdone.resolve_left fun hne => hne hplace
      refine ⟨[], rfl, rfl, .inl rfl, if_pos rfl, fun other hother => ?_⟩
      have htask : other.task ≠ strand.task := fun htask => by
        cases hother.symm.trans (hsole other htask (hwaits other hother))
      exact (if_neg htask).trans (hstill rfl other hother)
    | aside hnowhere => cases hplace.symm.trans hnowhere
  · have hother (turn : Turn) : action ≠ .go strand turn := fun haction => hown ⟨turn, haction⟩
    obtain ⟨m, ⟨heffects, -, hstays, hplaces⟩, hasides⟩ := h.others hk hholds hother
    refine .inr ⟨hother, (asides_counts_eq hasides).2.trans (congrArg ups heffects), ?_⟩
    by_cases hkeeps : l.places strand = some .announcing
    · exact .inl hkeeps
    refine .inr fun other hannounces => ?_
    have hm := places_of_asides hasides hannounces
    rcases hplaces other with hsame | hqueued
    · obtain rfl := honly (hsame.symm.trans hm)
      exact hkeeps hannounces
    · cases hqueued.symm.trans hm

end Circuit

namespace Client

variable {c d : Client} {actions later : List ClientAction} {action : ClientAction} {strand : Strand}

/-! ## Dials and their notices -/

/-- How often a dial has connected. -/
def connections (c : Client) : Nat := c.effects.count (.dialed .connected)

/-- How often the link has been made known to be up. -/
def announcements (c : Client) : Nat := c.effects.count (.notified .connected)

theorem connections_append {more : List Effect} (hmore : d.effects = c.effects ++ more) :
    d.connections = c.connections + more.count (.dialed .connected) := by
  rw [connections, hmore, List.count_append, connections]

theorem announcements_append {more : List Effect} (hmore : d.effects = c.effects ++ more) :
    d.announcements = c.announcements + more.count (.notified .connected) := by
  rw [announcements, hmore, List.count_append, announcements]

theorem connections_ne_iff {more : List Effect} (hmore : d.effects = c.effects ++ more) :
    d.connections ≠ c.connections ↔ .dialed .connected ∈ more := by
  rw [connections_append hmore, ← List.count_pos_iff]
  omega

/-- Whether a strand has a dial to make known. -/
def announces (c : Client) : Bool := c.connectLock.holder.any fun strand => c.connectAt strand = some .announcing

/-- What an action does to the number of dials that have connected, and to that of their notices. -/
inductive Counts (c d : Client) : Prop
  | same (hnumber : d.link.number = c.link.number) (hconnects : d.connections = c.connections)
      (hmade : d.announcements = c.announcements) (hannounces : d.announces = true → c.announces = true)
  | dialled (hnumber : d.link.number = c.link.number + 1) (hconnects : d.connections = c.connections + 1)
      (hmade : d.announcements = c.announcements) (hbefore : c.announces = false) (hannounces : d.announces = true)
  | told (hnumber : d.link.number = c.link.number) (hconnects : d.connections = c.connections)
      (hmade : d.announcements = c.announcements + 1) (hannounces : c.announces = true) (hafter : d.announces = false)

theorem counts_of_perform? (hc : Orderly c.connectLock fun strand => c.connectAt strand)
    (h : c.perform? action = some d) : Counts c d := by
  cases (step_of_perform? h).counts hc with
  | same hnumber hconnects hups hannounces => exact .same hnumber hconnects hups hannounces
  | dialled hnumber hconnects hups hbefore hannounces => exact .dialled hnumber hconnects hups hbefore hannounces
  | told hnumber hconnects hups hannounces hafter => exact .told hnumber hconnects hups hannounces hafter

/-- Whether an action cuts a strand off that has a dial to make known. -/
def cutsOff (action : ClientAction) (c : Client) : Bool :=
  c.announces && (c.perform? action).any fun d => !d.announces && d.announcements = c.announcements

/-- How many dials of a history are never made known, because their strands are cut off. -/
def untold : List ClientAction → Client → Nat
  | [], _ => 0
  | action :: actions, c => (c.cutsOff action).toNat + ((c.perform? action).map (untold actions)).getD 0

theorem untold_cons (later : List ClientAction) (h : c.perform? action = some d) :
    c.untold (action :: later) = (c.cutsOff action).toNat + d.untold later := by
  rw [untold, h, Option.map_some, Option.getD_some]

theorem cutsOff_eq (h : c.perform? action = some d) :
    c.cutsOff action = (c.announces && (!d.announces && decide (d.announcements = c.announcements))) := by
  rw [cutsOff, h, Option.any_some]

theorem announcements_eq_of_cutsOff (h : c.perform? action = some d) (hcut : c.cutsOff action = true) :
    d.announcements = c.announcements := by
  rw [cutsOff_eq h, Bool.and_eq_true, Bool.and_eq_true] at hcut
  exact of_decide_eq_true hcut.2.2

/-- Each step adds a dial that is to be made known, or its notice, or cuts it off, or none of these. -/
theorem connections_perform? (hc : Orderly c.connectLock fun strand => c.connectAt strand)
    (h : c.perform? action = some d) :
    d.connections + c.announcements + c.announces.toNat =
      c.connections + d.announcements + (c.cutsOff action).toNat + d.announces.toNat := by
  rw [cutsOff_eq h]
  cases counts_of_perform? hc h with
  | same _ hconnects hmade hannounces =>
    rw [hconnects, hmade]
    cases hd : d.announces with
    | true => simp [hannounces hd]
    | false => simp
  | dialled _ hconnects hmade hbefore hannounces =>
    simp only [hconnects, hmade, hbefore, hannounces, Bool.false_and, Bool.toNat_false, Bool.toNat_true]
    omega
  | told _ hconnects hmade hannounces hafter =>
    have hne : d.announcements ≠ c.announcements := by omega
    simp only [hconnects, hannounces, hafter, hne, decide_false, Bool.and_false, Bool.toNat_false, Bool.toNat_true]
    omega

/-- Over a history the dials that connect are those that are made known, those that are cut off, and what is left to
be made known in the end. -/
theorem connections_performAll? (hc : Orderly c.connectLock fun strand => c.connectAt strand)
    (h : c.performAll? later = some d) :
    d.connections + c.announcements + c.announces.toNat =
      c.connections + d.announcements + c.untold later + d.announces.toNat := by
  induction later generalizing c with
  | nil =>
    cases h
    rw [untold, Nat.add_zero]
  | cons action later ih =>
    obtain ⟨e, he : c.perform? action = some e, hd⟩ := Option.bind_eq_some_iff.mp h
    have hfirst := connections_perform? hc he
    have hrest := ih (orderly_perform? he hc) hd
    rw [untold_cons later he]
    omega

/-! ## The strand that has a dial to make known -/

/-- No time passes in an action while whoever holds the lock waits for nothing. -/
theorem now_eq_of_holder {place : ConnectPlace} (hplace : c.connectAt strand = some place)
    (hholds : c.connectLock.holder = some strand)
    (hlooks : place = .queued ∨ place = .checking ∨ place = .announcing) (h : c.perform? action = some d) :
    d.now = c.now := by
  rcases now_perform?_cases h with hsame | ⟨millis, rfl, -⟩
  · exact hsame
  · cases (perform?_pass_of_holder hplace hholds hlooks millis).symm.trans h

/-- What an action makes of a strand that has a dial to make known. -/
inductive AfterDial (strand : Strand) (c d : Client) : ClientAction → Prop
  /-- It makes the link known, as heard of now. Those who are queued are so still when the notice is out. -/
  | made {turn : Turn} {rest : List Effect} (heffects : d.effects = c.effects ++ .notified .connected :: rest)
      (hrest : rest = [] ∨ rest = [.notified .disconnected]) (hheard : d.lastHeard = some c.now)
      (hthrough : d.connectAt strand = none)
      (hqueued : ∀ other, c.connectAt other = some .queued → d.connectAt other = some .queued) :
      AfterDial strand c d (.go strand turn)
  | waits {action : ClientAction} (hother : ∀ turn, action ≠ .go strand turn)
      (hsame : d.announcements = c.announcements) (hplace : d.connectAt strand = some .announcing) :
      AfterDial strand c d action
  /-- Another strand of its task ends the task, or a call does that closes the client. -/
  | cutOff {action : ClientAction} (hcut : c.cutsOff action = true)
      (hnobody : ∀ other, d.connectAt other ≠ some .announcing)
      (hby : (∃ other turn, action = .go other turn ∧ other ≠ strand ∧ other.task = strand.task) ∨
        ∃ role, d.tasks[strand.task]? = some (.over role .aborted) ∧ ∀ call, role ≠ .call call) :
      AfterDial strand c d action

/-- A strand with a dial to make known: it holds the lock and need not wait for anything, nobody else gets further
than to wait for the lock, and no time passes. -/
structure Announcing (strand : Strand) (c : Client) : Prop where
  holds : c.connectLock.holder = some strand
  others : ∀ other place, other ≠ strand → c.connectAt other = some place → place = .asking ∨ place = .queued
  timeless : ∀ millis, c.perform? (.pass millis) = none
  able : ∃ d, c.perform? (.go strand .own) = some d
  after : ∀ action d, c.perform? action = some d → AfterDial strand c d action

theorem announces_of_connectAt (hc : Orderly c.connectLock fun strand => c.connectAt strand)
    (hplace : c.connectAt strand = some .announcing) : c.announces = true :=
  (Circuit.announces_iff (k := c.circuit) hc).mpr ⟨strand, hplace⟩

theorem announces_eq_false (hc : Orderly c.connectLock fun strand => c.connectAt strand)
    (hnobody : ∀ strand, c.connectAt strand ≠ some .announcing) : c.announces = false :=
  Circuit.announces_eq_false (k := c.circuit) hc hnobody

/-- If the strand is gone afterwards, and not by a step of its own, its task has been ended. -/
theorem cutOff_cases (hknown : c.HandlesKnown) (h : c.perform? action = some d)
    (hplace : c.connectAt strand = some .announcing) (hgone : d.connectAt strand ≠ some .announcing)
    (hother : ∀ turn, action ≠ .go strand turn) :
    (∃ other turn, action = .go other turn ∧ other ≠ strand ∧ other.task = strand.task) ∨
      ∃ role, d.tasks[strand.task]? = some (.over role .aborted) ∧ ∀ call, role ≠ .call call := by
  obtain ⟨was, hwas, hat⟩ := Option.bind_eq_some_iff.mp hplace
  have hrole : c.roleAt strand.task = some was.role := by rw [roleAt, hwas]; rfl
  obtain ⟨now, hnow, hstill⟩ := Option.map_eq_some_iff.mp (roleAt_perform? h hknown hrole)
  have hchanged {state : Task} (hsame : c.tasks[strand.task]? = some state)
      (hstate : d.tasks[strand.task]? = some state) : False := by
    obtain rfl := Option.some.inj (hwas.symm.trans hsame)
    exact hgone ((connectAt_of_task hstate).trans hat)
  rcases task_perform?_cases h hnow with hsame | ⟨-, hended⟩ | ⟨other, turn, _, _, rfl, htask, -, -⟩
  · exact (hchanged hsame hnow).elim
  · obtain ⟨role, rfl⟩ := hended (by rw [hwas]; exact Option.some_ne_none _)
    by_cases hown : ∃ other turn, action = .go other turn ∧ other.task = strand.task
    · obtain ⟨other, turn, rfl, htask⟩ := hown
      exact .inl ⟨other, turn, rfl, fun hsame => hother turn (hsame ▸ rfl), htask⟩
    · -- Nobody else ends a call.
      refine .inr ⟨role, hnow, fun call hcall => ?_⟩
      have hstays := calls_perform? h hknown hwas (hstill.symm.trans hcall) fun other turn haction htask =>
        hown ⟨other, turn, haction, htask⟩
      exact hchanged hwas hstays
  · exact .inl ⟨other, turn, rfl, fun hsame => hother turn (hsame ▸ rfl), htask⟩

theorem afterDial_of_perform? (hc : Orderly c.connectLock fun strand => c.connectAt strand) (hknown : c.HandlesKnown)
    (hplace : c.connectAt strand = some .announcing) (h : c.perform? action = some d) :
    AfterDial strand c d action := by
  rcases (step_of_perform? h).of_announcing hc hplace with
    ⟨turn, rest, rfl, heffects, hrest, hthrough, hqueued⟩ | ⟨hother, hups, hkeeps | hnobody⟩
  · have hhears : (Effect.notified .connected :: rest).any Effect.hears = true :=
      List.any_cons.trans (Bool.true_or _)
    exact .made heffects hrest ((lastHeard_of_perform? h heffects).trans (if_pos hhears)) hthrough hqueued
  · exact .waits hother hups hkeeps
  · refine .cutOff ?_ hnobody (cutOff_cases hknown h hplace (hnobody strand) hother)
    have hups : d.announcements = c.announcements := hups
    rw [cutsOff_eq h, announces_of_connectAt hc hplace, announces_eq_false (orderly_perform? h hc) hnobody, hups]
    simp

theorem announcing_of_connectAt (hc : Orderly c.connectLock fun strand => c.connectAt strand)
    (hknown : c.HandlesKnown) (hplace : c.connectAt strand = some .announcing) : Announcing strand c where
  holds := hc.holder_of_inside hplace nofun nofun
  others other place hne hother := by
    have hholds := hc.holder_of_inside hplace nofun nofun
    by_contra hinside
    obtain ⟨hasks, hqueued⟩ := not_or.mp hinside
    exact hne (Option.some.inj ((hc.holder_of_inside hother hasks hqueued).symm.trans hholds))
  timeless := perform?_pass_of_holder hplace (hc.holder_of_inside hplace nofun nofun) (.inr (.inr rfl))
  able := Option.isSome_iff_exists.mp (isSome_go?_of_connectAt hplace rfl)
  after _ _ := afterDial_of_perform? hc hknown hplace

/-- Unless it is cut off, a strand with a dial to make known has it still, or has made it known. -/
theorem announcing_kept (hc : Orderly c.connectLock fun strand => c.connectAt strand) (hknown : c.HandlesKnown)
    (hplace : c.connectAt strand = some .announcing) (h : c.perform? action = some d)
    (hcut : c.cutsOff action = false) :
    d.connectAt strand = some .announcing ∨ ∃ turn, action = .go strand turn := by
  cases afterDial_of_perform? hc hknown hplace h with
  | made => exact .inr ⟨_, rfl⟩
  | waits _ _ hkept => exact .inl hkept
  | cutOff hcuts => cases hcut.symm.trans hcuts

end Client

end AlarmPanel
