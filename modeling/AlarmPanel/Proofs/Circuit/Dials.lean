import AlarmPanel.Client.Script
import AlarmPanel.Proofs.Circuit.Announcing

/-!
# One dial at a time

A dial begins only while the link is down, and only with the connect lock (`Circuit.dials_of_step`). Callers
that wait for the lock together find the link that the first of them has brought up: unless that one is cut off, it
is heard of when it is made known, so nobody behind hangs it up again, and time does not pass before they have looked
at it (`Circuit.Phase.step`). So one dial is enough for them all, and each dial that connects is made known before any
of them goes on (`Client.one_dial_announced`).
-/

namespace AlarmPanel

namespace Circuit

open Relation

variable {k l : Circuit} {strand mover : Strand} {action : ClientAction} {number : Nat}

/-! ## Dials -/

/-- How often a dial has begun. -/
def dials (k : Circuit) : Nat := k.effects.countP fun effect => effect matches .dialing _

theorem Aside.dials_eq (h : k.Aside l) : l.dials = k.dials := by
  cases h with
  | record hquiet =>
    rw [dials, dials, Circuit.record, List.countP_append, Nat.add_eq_left, List.countP_eq_zero]
    intro effect heffect
    have hnot := hquiet effect heffect
    cases effect <;> simp_all [Effect.aboutLink]
  | lose => simp [dials, Circuit.record, setReceiver]
  | fall | hear | begin | giveUp | launch | read => rfl

theorem asides_dials (h : ReflTransGen Aside k l) : l.dials = k.dials :=
  asides_induction (P := fun m => m.dials = k.dials) (fun haside hk => haside.dials_eq.trans hk) h rfl

/-- A strand that begins a dial has just seen that the link is down. -/
theorem Connect.dials_cases (h : k.Connect strand l) :
    l.dials = k.dials ∨ l.dials = k.dials + 1 ∧ k.places strand = some .checking ∧ k.up = false := by
  cases h with
  | ask | enter | wake | leave => exact .inl rfl
  | hangUp | announce => exact .inl (by simp [dials, record, put])
  | dial hplace hdown => exact .inr ⟨by simp [dials, record, put], hplace, hdown⟩
  | fail _ hdials | succeed hdials =>
    rcases hdials with ⟨-, rfl⟩ | ⟨hplace, hdown, rfl⟩
    · exact .inl (by simp [dials, record, put])
    · exact .inr ⟨by simp [dials, record, put], hplace, hdown⟩

/-- Whoever begins a dial finds the link down, and nobody else in a dial or about to make one known. -/
theorem dials_of_step (hk : Orderly k.lock k.places) (h : k.Step action l) :
    l.dials = k.dials ∨
      l.dials = k.dials + 1 ∧ k.up = false ∧
        ∀ other, k.places other ≠ some .dialing ∧ k.places other ≠ some .announcing := by
  cases h with
  | go turn hgoes =>
    rcases hgoes.connect_or_asides hk with ⟨m, hconnect, hasides, -, -⟩ | ⟨-, hasides⟩
    · rw [asides_dials hasides]
      refine hconnect.dials_cases.imp id fun ⟨hdials, hplace, hdown⟩ => ⟨hdials, hdown, fun other => ?_⟩
      -- Both would hold the lock.
      have hholds := hk.holder_of_inside hplace nofun nofun
      have hinside {place : ConnectPlace} (hother : k.places other = some place) (hasks : place ≠ .asking)
          (hqueued : place ≠ .queued) : place = .checking := by
        have hboth := hk.holder_of_inside hother hasks hqueued
        rw [Option.some.inj (hboth.symm.trans hholds), hplace] at hother
        exact (Option.some.inj hother).symm
      exact ⟨fun hother => ConnectPlace.noConfusion (hinside hother nofun nofun),
        fun hother => ConnectPlace.noConfusion (hinside hother nofun nofun)⟩
    · exact .inl (asides_dials hasides)
  | call => exact .inl rfl
  | link _ hlink => rcases hlink with rfl | rfl <;> exact .inl rfl
  | pass => exact .inl rfl

/-! ## Waiting together -/

/-- Whoever holds the lock has only to look at the link. -/
def Looks (k : Circuit) : Prop :=
  ∀ holder, k.lock.holder = some holder → k.places holder = some .queued ∨ k.places holder = some .checking

/-- How far those who wait together have come since the link was down with this number. -/
inductive Phase (number : Nat) (k : Circuit) : Prop
  | down (hdown : k.up = false) (hnumber : k.number = number)
  /-- The link has come up, and is still to be made known. -/
  | dialled {strand : Strand} (hup : k.up = true) (hnumber : k.number = number + 1)
      (hplace : k.places strand = some .announcing)
  /-- It is known, and none of them will hang it up. -/
  | back (hup : k.up = true) (hnumber : k.number = number + 1) (hheard : k.silent = false) (hlooks : k.Looks)

theorem Aside.looks (hk : Orderly k.lock k.places) (h : k.Aside l) (hlooks : k.Looks) : l.Looks := by
  intro holder hholds
  cases h with
  | @begin task _ hnowhere =>
    obtain ⟨place, hplace, -⟩ := hk.place_of_holder hholds
    have htask : holder.task ≠ task := fun htask => by cases hplace.symm.trans (hnowhere holder htask)
    exact (hlooks holder hholds).imp (if_neg htask).trans (if_neg htask).trans
  | giveUp task =>
    obtain ⟨htask, hbefore | hqueued⟩ := hk.holder_of_withdraw hholds
    · exact (hlooks holder hbefore).imp (if_neg htask).trans (if_neg htask).trans
    · exact .inl ((if_neg htask).trans hqueued)
  | fall | hear | record | launch | read | lose => exact hlooks holder hholds

/-- What a strand does that sees to the link, while the link is down. -/
theorem Phase.connect_of_down (hdown : k.up = false) (hnumber : k.number = number) (h : k.Connect strand l) :
    Phase number l := by
  cases h with
  | succeed => exact .dialled rfl (congrArg (· + 1) hnumber) (places_put_self ..)
  | hangUp => exact .down rfl hnumber
  | _ => exact .down hdown hnumber

/-- While it is still to be made known that the link is up: whoever has to do so does, and others can only ask for
the lock. -/
theorem Phase.connect_of_dialled (hk : Orderly k.lock k.places) (hup : k.up = true)
    (hnumber : k.number = number + 1) (hplace : k.places strand = some .announcing) (h : k.Connect mover l) :
    Phase number l := by
  have hholds := hk.holder_of_inside hplace nofun nofun
  by_cases hmover : mover = strand
  · subst hmover
    obtain rfl := h.eq_of_announcing hplace
    exact .back hup hnumber rfl fun next hnext => .inl (h.queued_of_through hk (places_put_self ..) hnext)
  · obtain rfl := h.eq_of_other hk hholds hmover
    exact .dialled hup hnumber ((places_put_of_ne (Ne.symm hmover) _ _).trans hplace)

/-- And once it is known. -/
theorem Phase.connect_of_back (hk : Orderly k.lock k.places) (hup : k.up = true)
    (hnumber : k.number = number + 1) (hheard : k.silent = false) (hlooks : k.Looks)
    (h : k.Connect strand l) : Phase number l := by
  have hother {place : ConnectPlace} (hplace : k.places strand = some place) (hasks : place ≠ .asking)
      (hqueued : place ≠ .queued) (hchecks : place ≠ .checking) : False := by
    rcases hlooks strand (hk.holder_of_inside hplace hasks hqueued) with hlook | hlook
    · exact hqueued (Option.some.inj (hplace.symm.trans hlook))
    · exact hchecks (Option.some.inj (hplace.symm.trans hlook))
  have hdials {begun : List Effect} (h : k.Dials strand begun) : False := by
    rcases h with ⟨hplace, -⟩ | ⟨-, hdown, -⟩
    · exact hother hplace nofun nofun nofun
    · cases hup.symm.trans hdown
  cases h with
  | ask hplace =>
    refine .back hup hnumber hheard fun holder hholds => ?_
    rcases hk.holder_of_ask hplace hholds with rfl | ⟨hne, hbefore⟩
    · exact .inl (places_put_self ..)
    · have hsame := places_put_of_ne hne (some .queued) { k with lock := k.lock.ask strand }
      exact (hlooks holder hbefore).imp hsame.trans hsame.trans
  | enter _ hholds =>
    refine .back hup hnumber hheard fun holder hholder => .inr ?_
    obtain rfl : holder = strand := Option.some.inj (hholder.symm.trans hholds)
    exact places_put_self ..
  | hangUp _ _ hsilent => cases hheard.symm.trans hsilent
  | dial _ hdown => cases hup.symm.trans hdown
  | fail _ h | succeed h => exact (hdials h).elim
  | announce hplace | wake hplace => exact (hother hplace nofun nofun nofun).elim
  | leave hplace hasks _ hqueued =>
    refine .back hup hnumber hheard fun next hnext => .inl ?_
    exact hk.queued_of_release (hk.holder_of_leave hplace hasks fun h => (hqueued h).1) hnext

theorem Phase.connect (hk : Orderly k.lock k.places) (hphase : Phase number k) (h : k.Connect strand l) :
    Phase number l := by
  cases hphase with
  | down hdown hnumber => exact .connect_of_down hdown hnumber h
  | dialled hup hnumber hplace => exact .connect_of_dialled hk hup hnumber hplace h
  | back hup hnumber hheard hlooks => exact .connect_of_back hk hup hnumber hheard hlooks h

/-- What is done beside connecting does not keep those who wait from finding the link, if it stays up and nobody is
cut off who has it still to make known. -/
theorem Phase.asides (hk : Orderly k.lock k.places) (hphase : Phase number k) (h : ReflTransGen Aside k l)
    (hstays : k.up = true → l.up = true)
    (hkept : ∀ strand, k.places strand = some .announcing → l.places strand = some .announcing) :
    Phase number l := by
  cases hphase with
  | down hdown hnumber =>
    exact .down (asides_down h hdown) ((asides_number h).trans hnumber)
  | dialled hup hnumber hplace =>
    exact .dialled (hstays hup) ((asides_number h).trans hnumber) (hkept _ hplace)
  | back hup hnumber hheard hlooks =>
    obtain ⟨-, hheard, hlooks⟩ := asides_induction
      (P := fun m => Orderly m.lock m.places ∧ m.silent = false ∧ m.Looks)
      (fun haside ⟨hm, hheard, hlooks⟩ =>
        ⟨haside.orderly hm, by cases haside <;> first | exact hheard | rfl, haside.looks hm hlooks⟩)
      h ⟨hk, hheard, hlooks⟩
    exact .back (hstays hup) ((asides_number h).trans hnumber) hheard hlooks

/-- While somebody waits, and the link stays up unless those who see to it take it down, and nobody is cut off who has
it still to make known, no step leads out of the three phases. -/
theorem Phase.step (hk : Orderly k.lock k.places) (hphase : Phase number k) (h : k.Step action l)
    (hwaits : k.lock.holder ≠ none)
    (hstays : k.up = true → l.up = true ∨ ∃ strand turn, action = .go strand turn ∧ k.places strand ≠ none)
    (hkept : ∀ strand, k.places strand = some .announcing →
      l.places strand = some .announcing ∨ ∃ turn, action = .go strand turn) :
    Phase number l := by
  cases h with
  | @go mover _ turn hgoes =>
    rcases hgoes.connect_or_asides hk with ⟨m, hconnect, hasides, hup, hends⟩ | ⟨hnowhere, hasides⟩
    · refine (hphase.connect hk hconnect).asides (hconnect.orderly hk) hasides hup.trans fun strand hstrand => ?_
      rcases hends with rfl | hthrough
      · exact hstrand
      · exact absurd hstrand (hconnect.quiet_of_through hk hthrough strand)
    · refine hphase.asides hk hasides (fun hup => (hstays hup).resolve_right ?_) fun strand hstrand =>
        (hkept strand hstrand).resolve_right ?_
      · rintro ⟨_, _, heq, hsees⟩
        cases heq
        exact hsees hnowhere
      · rintro ⟨_, heq⟩
        cases heq
        cases hstrand.symm.trans hnowhere
  | call => exact hphase
  | link haction hlink =>
    have hasides : ReflTransGen Aside k l := by
      rcases hlink with rfl | rfl
      · exact .refl
      · exact .single .fall
    refine hphase.asides hk hasides (fun hup => (hstays hup).resolve_right ?_) fun strand hstrand =>
      (hkept strand hstrand).resolve_right fun ⟨turn, heq⟩ => haction strand turn heq
    rintro ⟨strand, turn, heq, -⟩
    exact haction strand turn heq
  | pass _ silent hstuck =>
    -- Unless the link is down, whoever holds the lock can go on, so no time passes.
    obtain ⟨holder, hholds⟩ := Option.ne_none_iff_exists'.mp hwaits
    obtain ⟨hqueued, hchecks, hannounces⟩ := hstuck holder hholds
    cases hphase with
    | down hdown hnumber => exact .down hdown hnumber
    | dialled _ _ hplace =>
      have hboth := hk.holder_of_inside hplace nofun nofun
      exact absurd (Option.some.inj (hholds.symm.trans hboth) ▸ hplace) hannounces
    | back _ _ _ hlooks => exact ((hlooks holder hholds).elim hqueued hchecks).elim

/-- Whoever has got the lock while the panel has been silent for too long hangs the link up. -/
theorem down_of_silent {turn : Turn} (hk : Orderly k.lock k.places) (h : k.Step (.go strand turn) l)
    (hqueued : k.places strand = some .queued) (hsilent : k.silent = true) :
    l.up = false ∧ l.number = k.number := by
  have hconnect {m : Circuit} (h : k.Connect strand m) : m.up = false ∧ m.number = k.number := by
    cases h with
    | hangUp => exact ⟨rfl, rfl⟩
    | enter _ _ hheard => cases hsilent.symm.trans hheard
    | leave hplace _ _ hleaves =>
      cases hplace.symm.trans hqueued
      cases hsilent.symm.trans (hleaves rfl).2
    | ask hplace | dial hplace | announce hplace | wake hplace => cases hplace.symm.trans hqueued
    | fail _ hdials | succeed hdials =>
      rcases hdials with ⟨hplace, -⟩ | ⟨hplace, -, -⟩ <;> cases hplace.symm.trans hqueued
  cases h with
  | go _ hgoes =>
    rcases hgoes.connect_or_asides hk with ⟨m, h, hasides, hup, -⟩ | ⟨hnowhere, -⟩
    · obtain ⟨hdown, hnumber⟩ := hconnect h
      exact ⟨hup.trans hdown, (asides_number hasides).trans hnumber⟩
    · cases hqueued.symm.trans hnowhere
  | link haction => exact absurd rfl (haction strand turn)

end Circuit

namespace Client

variable {c d : Client} {actions later : List ClientAction} {strand : Strand} {number : Nat}

/-! ## Histories -/

theorem dials_eq (c : Client) : c.dials = c.circuit.dials := by
  simp only [dials, Circuit.dials, circuit, effects, List.countP_reverse, List.countP_map]
  rfl

/-- Whether an action is a step of a strand that sees to the link. -/
def seesToLink (action : ClientAction) (c : Client) : Bool :=
  match action with
  | .go strand _ => (c.connectAt strand).isSome
  | _ => false

/-- Whether a strand stands in line for the connect lock all through a history, and whether the link stays up
in it: only those who see to it may take it down. -/
def waitsThrough (strand : Strand) : List ClientAction → Client → Bool
  | [], _ => true
  | action :: actions, c =>
    decide (strand ∈ c.connectLock.line) && (c.perform? action).any fun d =>
      (!c.link.up || d.link.up || c.seesToLink action) && waitsThrough strand actions d

/-- The link is dead, or the panel has been silent for too long and the first thing to happen is that whoever
holds the lock learns of it. -/
def FindsNoLink (later : List ClientAction) (c : Client) : Prop :=
  c.link.up = false ∨ c.isStale? = some true ∧ ∃ holder rest, later = .go holder .own :: rest ∧
    c.connectLock.holder = some holder ∧ c.connectAt holder = some .queued

/-- The first step of a history that somebody waits through. -/
theorem waitsThrough_cons {action : ClientAction} (h : c.waitsThrough strand (action :: later) = true)
    (hstep : c.perform? action = some d) :
    strand ∈ c.connectLock.line ∧
      (c.link.up = true → d.link.up = true ∨
        ∃ caller turn, action = .go caller turn ∧ c.connectAt caller ≠ none) ∧
      d.waitsThrough strand later = true := by
  rw [waitsThrough, hstep, Bool.and_eq_true, Option.any_some, Bool.and_eq_true] at h
  obtain ⟨hline, hstays, hrest⟩ := h
  refine ⟨of_decide_eq_true hline, fun hup => ?_, hrest⟩
  simp only [hup, Bool.not_true, Bool.false_or, Bool.or_eq_true] at hstays
  refine hstays.imp id fun hsees => ?_
  cases action with
  | go caller turn => exact ⟨caller, turn, rfl, Option.isSome_iff_ne_none.mp hsees⟩
  | _ => cases hsees

/-- Those who wait do not leave the three phases while they wait. -/
theorem phase_of_performAll? (hk : Orderly c.connectLock fun strand => c.connectAt strand) (hknown : c.HandlesKnown)
    (hphase : Circuit.Phase number c.circuit) (h : c.performAll? later = some d)
    (hwaits : c.waitsThrough strand later = true) (htold : c.untold later = 0) :
    Circuit.Phase number d.circuit := by
  induction later generalizing c with
  | nil =>
    cases h
    exact hphase
  | cons action later ih =>
    obtain ⟨e, he : c.perform? action = some e, hd⟩ := Option.bind_eq_some_iff.mp h
    obtain ⟨hline, hstays, hrest⟩ := waitsThrough_cons hwaits he
    rw [untold_cons later he, Nat.add_eq_zero_iff, Bool.toNat_eq_zero] at htold
    have hkept (other : Strand) (hother : c.connectAt other = some .announcing) :=
      announcing_kept hk hknown hother he htold.1
    exact ih (orderly_perform? he hk) (handlesKnown_perform? he hknown)
      (hphase.step hk (step_of_perform? he) (Lock.holder_ne_none hk.fair hline) hstays hkept) hd hrest htold.2

/-- The link of those who wait is down at first, or after the first step. -/
theorem phase_of_findsNoLink (hk : Orderly c.connectLock fun strand => c.connectAt strand) (hknown : c.HandlesKnown)
    (hfinds : c.FindsNoLink later) (h : c.performAll? later = some d)
    (hwaits : c.waitsThrough strand later = true) (htold : c.untold later = 0) :
    Circuit.Phase c.link.number d.circuit := by
  rcases hfinds with hdown | ⟨hstale, holder, rest, rfl, -, hqueued⟩
  · exact phase_of_performAll? hk hknown (.down hdown rfl) h hwaits htold
  · obtain ⟨e, he : c.perform? _ = some e, hd⟩ := Option.bind_eq_some_iff.mp h
    obtain ⟨hdown, hnumber⟩ := Circuit.down_of_silent hk (step_of_perform? he) hqueued (decide_eq_true hstale)
    rw [untold_cons rest he, Nat.add_eq_zero_iff] at htold
    exact phase_of_performAll? (orderly_perform? he hk) (handlesKnown_perform? he hknown) (.down hdown hnumber) hd
      (waitsThrough_cons hwaits he).2.2 htold.2

variable {settings : ClientSettings} {handlers : Handlers} {link : Link}

/-- The number of a link counts the dials that have connected. -/
theorem number_add_connections (hdown : link.up = false)
    (h : (new settings handlers link).performAll? actions = some c) :
    link.number + c.connections = c.link.number := by
  obtain ⟨-, _, htally⟩ := exists_tally_of_performAll? hdown h
  exact htally.number

/-- Of the dials that have connected some have been made known, some have been cut off before, and one may still be to
be made known. -/
theorem connections_eq (h : (new settings handlers link).performAll? actions = some c) :
    c.connections = c.announcements + untold actions (new settings handlers link) + c.announces.toNat := by
  have hcount := connections_performAll? Orderly.free h
  have hnew : (new settings handlers link).connections = 0 ∧ (new settings handlers link).announcements = 0 ∧
      (new settings handlers link).announces = false := ⟨rfl, rfl, rfl⟩
  rw [hnew.1, hnew.2.1, hnew.2.2, Bool.toNat_false] at hcount
  omega

theorem connections_cases {action : ClientAction} (hk : Orderly c.connectLock fun strand => c.connectAt strand)
    (h : c.perform? action = some d) :
    d.connections = c.connections ∨ d.connections = c.connections + 1 ∧
      ∃ strand turn, action = .go strand turn ∧ d.connectAt strand = some .announcing := by
  cases counts_of_perform? hk h with
  | same _ hconnects | told _ hconnects => exact .inl hconnects
  | dialled _ hconnects =>
    have hne : d.connections ≠ c.connections := by omega
    exact .inr ⟨hconnects, (step_of_perform? h).dialler hk hne⟩

theorem announcements_cases {action : ClientAction} (hk : Orderly c.connectLock fun strand => c.connectAt strand)
    (hknown : c.HandlesKnown) (h : c.perform? action = some d) :
    d.announcements = c.announcements ∨ d.announcements = c.announcements + 1 ∧
      ∃ strand turn, action = .go strand turn ∧ c.connectAt strand = some .announcing := by
  cases counts_of_perform? hk h with
  | same _ _ hmade | dialled _ _ hmade => exact .inl hmade
  | told _ _ hmade hannounces =>
    obtain ⟨strand, hplace⟩ := (Circuit.announces_iff (k := c.circuit) hk).mp hannounces
    cases afterDial_of_perform? hk hknown hplace h with
    | made => exact .inr ⟨hmade, strand, _, rfl, hplace⟩
    | waits _ hsame => exact .inl hsame
    | cutOff hcut => exact .inl (announcements_eq_of_cutsOff h hcut)

/-- After every history of a new client on a link that is down:

* Nobody begins a dial while the link is up, or while somebody is in a dial or has one to make known.
* A dial that connects leaves its strand with the dial to make known. Until it does so in its next step nobody who
  waits gets further, and those who are queued are so still when the notice is out. There are no other notices. So
  each dial that has connected has its one notice or is still to be made known, but for those whose strands have been
  cut off in between.
* Callers who wait in line together for a link that is dead or stale cause one dial that connects, unless the link
  that it brings up is lost, or a strand is cut off that has it to make known.
* At no point has the link been told to be lost more often than it has been told to be up, and has come up without a
  notice. -/
theorem one_dial_announced (hdown : link.up = false)
    (h : (new settings handlers link).performAll? actions = some c) :
    (∀ action d, c.perform? action = some d → d.dials = c.dials ∨ d.dials = c.dials + 1 ∧ c.link.up = false ∧
      ∀ strand, c.connectAt strand ≠ some .dialing ∧ c.connectAt strand ≠ some .announcing) ∧
    ((∀ action d, c.perform? action = some d →
        (d.connections = c.connections ∨ d.connections = c.connections + 1 ∧
          ∃ strand turn, action = .go strand turn ∧ d.connectAt strand = some .announcing) ∧
        (d.announcements = c.announcements ∨ d.announcements = c.announcements + 1 ∧
          ∃ strand turn, action = .go strand turn ∧ c.connectAt strand = some .announcing)) ∧
      (∀ strand, c.connectAt strand = some .announcing → Announcing strand c) ∧
      c.connections = c.announcements + untold actions (new settings handlers link) + c.announces.toNat) ∧
    (∀ strand later d, c.performAll? later = some d → c.waitsThrough strand later = true → c.FindsNoLink later →
      c.untold later = 0 → d.connections = c.connections + if d.link.up = true then 1 else 0) ∧
    ∀ front, front <+: c.effects → front.count (.notified .disconnected) ≤
      front.count (.notified .connected) + untold actions (new settings handlers link) := by
  have hk := orderly_of_performAll? h
  have hknown := handlesKnown_of_performAll? h
  have hcount := number_add_connections hdown h
  have hmade := connections_eq h
  refine ⟨fun action d hd => ?_, ⟨fun action d hd => ⟨connections_cases hk hd, announcements_cases hk hknown hd⟩,
    fun strand => announcing_of_connectAt hk hknown, hmade⟩, fun strand later d hd hwaits hfinds htold => ?_, ?_⟩
  · rw [dials_eq, dials_eq]
    exact Circuit.dials_of_step hk (step_of_perform? hd)
  · have hnext := number_add_connections hdown (performAll?_trans h hd)
    cases phase_of_findsNoLink hk hknown hfinds hd hwaits htold with
    | down hdown' hnumber =>
      have hnumber : d.link.number = c.link.number := hnumber
      have hdown' : d.link.up = false := hdown'
      simp only [hdown', Bool.false_eq_true, if_false]
      omega
    | dialled hup hnumber | back hup hnumber =>
      have hnumber : d.link.number = c.link.number + 1 := hnumber
      have hup : d.link.up = true := hup
      simp only [hup, if_true]
      omega
  · obtain ⟨-, untold', htally⟩ := exists_tally_of_performAll? hdown h
    have htold : c.announcements + untold' + c.announces.toNat = c.connections := htally.told
    obtain rfl : untold' = untold actions (new settings handlers link) := by omega
    exact htally.covered

/-- Two callers of which one waits for the other's dial: it does not dial again. -/
theorem one_dial_announced_two_callers :
    let c₀ := new .default ⟨none, none, none, none⟩ (.new false true false)
    let actions : List ClientAction :=
      [.call .connect, .call .connect, .go ⟨0, 0⟩ .own, .go ⟨1, 0⟩ .own, .go ⟨0, 0⟩ .own, .go ⟨1, 0⟩ .own,
        .go ⟨0, 0⟩ .own, .go ⟨0, 0⟩ .own]
    let later : List ClientAction := [.go ⟨0, 0⟩ .link, .go ⟨0, 0⟩ .own, .go ⟨1, 0⟩ .own, .go ⟨1, 0⟩ .own]
    ∃ c d, c₀.performAll? actions = some c ∧ c.performAll? later = some d ∧
      c.connectAt ⟨0, 0⟩ = some .dialing ∧ c.connectAt ⟨1, 0⟩ = some .queued ∧
      d.answer? 1 = some .done ∧ d.connections = c.connections + 1 := by
  intro c₀ actions later
  have hrun : (c₀.performAll? actions).any fun c =>
      c.connectAt ⟨0, 0⟩ = some .dialing ∧ c.connectAt ⟨1, 0⟩ = some .queued ∧ c.link.up = false ∧
        c.waitsThrough ⟨1, 0⟩ later = true ∧ c.untold later = 0 ∧
        (c.performAll? later).any fun d => d.answer? 1 = some .done ∧ d.link.up = true := by
    decide +kernel
  obtain ⟨c, hc, hlater⟩ := (Option.any_eq_true _ _).mp hrun
  obtain ⟨hdials, hqueued, hdown, hwaits, htold, hend⟩ := of_decide_eq_true hlater
  obtain ⟨d, hd, hd'⟩ := (Option.any_eq_true _ _).mp hend
  obtain ⟨hdone, hup⟩ := of_decide_eq_true hd'
  obtain ⟨-, -, htogether, -⟩ := one_dial_announced rfl hc
  have hcount := htogether ⟨1, 0⟩ later d hd hwaits (.inl hdown) htold
  rw [if_pos hup] at hcount
  exact ⟨c, d, hc, hd, hdials, hqueued, hdone, hcount⟩

/-- The longest update interval and a second of grace: once the link has been up and is lost, the receive task waits
for the lock on a dead link, and dies when it gets it. Nobody dials again, and nothing else can go on. -/
theorem never_redialled_of_longest_interval :
    let settings := { ClientSettings.default with updateSeconds := 18446744073709551615, graceSeconds := 1 }
    let c₀ := new settings ⟨none, none, none, none⟩ (.new false false false)
    let actions : List ClientAction :=
      .call .start :: .replicate 2 (.go ⟨0, 0⟩ .own) ++ .replicate 5 (.go ⟨1, 0⟩ .own) ++
        [.go ⟨2, 0⟩ .own, .lose] ++ .replicate 3 (.go ⟨1, 0⟩ .own)
    ∃ c d, c₀.performAll? actions = some c ∧ c.connectAt ⟨1, 0⟩ = some .queued ∧ c.link.up = false ∧
      c.connections = 1 ∧ c.performAll? [.go ⟨1, 0⟩ .own] = some d ∧
      d.tasks[1]? = some (.over .receive .died) ∧ d.closed = false ∧ d.link.up = false ∧ d.connections = 1 ∧
      d.ready = [] := by
  intro settings c₀ actions
  have hrun : (c₀.performAll? actions).any fun c =>
      c.connectAt ⟨1, 0⟩ = some .queued ∧ c.link.up = false ∧ c.connections = 1 ∧
        (c.performAll? [.go ⟨1, 0⟩ .own]).any fun d => d.tasks[1]? = some (.over .receive .died) ∧
          d.closed = false ∧ d.link.up = false ∧ d.connections = 1 ∧ d.ready = [] := by
    decide +kernel
  obtain ⟨c, hc, hwaits⟩ := (Option.any_eq_true _ _).mp hrun
  obtain ⟨hqueued, hdown, hconnections, hlater⟩ := of_decide_eq_true hwaits
  obtain ⟨d, hd, hend⟩ := (Option.any_eq_true _ _).mp hlater
  exact ⟨c, d, hc, hqueued, hdown, hconnections, hd, of_decide_eq_true hend⟩

/-- A branch of an update has dialled and is cut off, since another branch cannot write, before it makes the link known:
then the link is up without a notice, and when it is lost it has been told to be lost more often than to be up. -/
theorem lost_more_often_than_up :
    let link := { Link.new false false false with faultsSpare := true }
    let c₀ := new .default ⟨none, none, none, none⟩ link
    let actions : List ClientAction :=
      .call .start :: .replicate 2 (.go ⟨0, 0⟩ .own) ++ .replicate 5 (.go ⟨1, 0⟩ .own) ++
        .call .update :: .replicate 4 (.go ⟨3, 0⟩ .own) ++ .lose :: .replicate 3 (.go ⟨3, 1⟩ .own) ++
          .setWriteFaults 1 :: .replicate 2 (.go ⟨3, 0⟩ .own) ++ .replicate 5 (.go ⟨1, 0⟩ .own) ++
            [.lose, .go ⟨1, 0⟩ .own]
    ∃ c, c₀.performAll? actions = some c ∧ c.connections = 2 ∧ c.announcements = 1 ∧ untold actions c₀ = 1 ∧
      c.effects.count (.notified .disconnected) = 2 := by
  intro link c₀ actions
  have hrun : (c₀.performAll? actions).any fun c => c.connections = 2 ∧ c.announcements = 1 ∧
      untold actions c₀ = 1 ∧ c.effects.count (.notified .disconnected) = 2 := by
    decide +kernel
  obtain ⟨c, hc, hcounts⟩ := (Option.any_eq_true _ _).mp hrun
  exact ⟨c, hc, of_decide_eq_true hcounts⟩

end Client

end AlarmPanel
