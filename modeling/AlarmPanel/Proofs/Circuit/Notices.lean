import Mathlib.Data.List.Infix
import AlarmPanel.Proofs.Circuit.Steps

/-!
# Notices of the link

A client lets it be known when the link comes up and when the receive task has lost it. For these notices few
things that happen to the circuit count, and `Circuit.Shift` lists them. From it follows how the notices are tied
to the dials, to the link that is up and to the one that the receive task reads from (`Circuit.Tally`): every dial
that connects is made known, or is still to be made known, or its strand has been cut off before that.
-/

namespace AlarmPanel

/-- Whether an effect is the end of a dial that connects, or a notice that the link is up or lost. -/
def Effect.tells : Effect → Bool
  | .dialed .connected | .notified .connected | .notified .disconnected => true
  | _ => false

theorem Effect.tells_of_aboutLink {effect : Effect} (h : effect.aboutLink = false) :
    effect.tells = false := by
  unfold tells
  split
  next => cases h
  next => cases h
  next => cases h
  next => rfl

theorem Effect.tells_dialed {outcome : DialOutcome} (h : outcome ≠ .connected) :
    (Effect.dialed outcome).tells = false := by
  cases outcome with
  | connected => exact absurd rfl h
  | refused | unanswered => rfl

/-! ## Records -/

/-- How often a dial has connected. -/
def connects (effects : List Effect) : Nat := effects.count (.dialed .connected)

/-- How often the record has the notice that the link is up. -/
def ups (effects : List Effect) : Nat := effects.count (.notified .connected)

/-- How often the record has the notice that the link is lost. -/
def losses (effects : List Effect) : Nat := effects.count (.notified .disconnected)

/-- At no point of the record has the link been lost more often than it has come up, if it has come up so often
without a notice. -/
def Covered (untold : Nat) (effects : List Effect) : Prop :=
  ∀ front, front <+: effects → losses front ≤ ups front + untold

variable {effects more : List Effect} {untold : Nat}

@[simp] theorem connects_append (effects more : List Effect) :
    connects (effects ++ more) = connects effects + connects more := List.count_append

@[simp] theorem ups_append (effects more : List Effect) :
    ups (effects ++ more) = ups effects + ups more := List.count_append

@[simp] theorem losses_append (effects more : List Effect) :
    losses (effects ++ more) = losses effects + losses more := List.count_append

@[simp] theorem connects_dialed : connects [.dialed .connected] = 1 := by decide

@[simp] theorem connects_notified (notice : Notice) : connects [.notified notice] = 0 := rfl

@[simp] theorem ups_dialed (outcome : DialOutcome) : ups [.dialed outcome] = 0 := rfl

@[simp] theorem ups_connected : ups [.notified .connected] = 1 := by decide

@[simp] theorem ups_disconnected : ups [.notified .disconnected] = 0 := by decide

@[simp] theorem losses_dialed (outcome : DialOutcome) : losses [.dialed outcome] = 0 := rfl

@[simp] theorem losses_connected : losses [.notified .connected] = 0 := by decide

@[simp] theorem losses_disconnected : losses [.notified .disconnected] = 1 := by decide

theorem ne_of_tells {effect told : Effect} (h : effect.tells = false) (htold : told.tells = true) :
    effect ≠ told := by
  rintro rfl
  rw [h] at htold
  cases htold

theorem count_eq_zero_of_tells {told : Effect} (h : ∀ effect ∈ effects, effect.tells = false)
    (htold : told.tells = true) : effects.count told = 0 :=
  List.count_eq_zero.mpr fun hmem => ne_of_tells (h _ hmem) htold rfl

theorem connects_eq_zero (h : ∀ effect ∈ effects, effect.tells = false) : connects effects = 0 :=
  count_eq_zero_of_tells h rfl

theorem ups_eq_zero (h : ∀ effect ∈ effects, effect.tells = false) : ups effects = 0 :=
  count_eq_zero_of_tells h rfl

theorem losses_eq_zero (h : ∀ effect ∈ effects, effect.tells = false) : losses effects = 0 :=
  count_eq_zero_of_tells h rfl

/-- What tells nothing does not come last where the notice does that the link is up. -/
theorem getLast?_of_tells (hmore : ∀ effect ∈ more, effect.tells = false)
    (h : (effects ++ more).getLast? = some (.notified .connected)) :
    effects.getLast? = some (.notified .connected) := by
  rw [List.getLast?_append] at h
  cases hlast : more.getLast? with
  | none => rwa [hlast, Option.none_or] at h
  | some effect =>
    rw [hlast, Option.some_or] at h
    exact absurd (Option.some.inj h) (ne_of_tells (hmore effect (List.mem_of_getLast? hlast)) rfl)

theorem Covered.append (h : Covered untold effects) (hmore : losses effects + losses more ≤ ups effects + untold) :
    Covered untold (effects ++ more) := by
  intro front hfront
  rcases List.prefix_or_prefix_of_prefix hfront (List.prefix_append effects more) with hold | ⟨new, rfl⟩
  · exact h front hold
  · have hnew : new <+: more := (List.prefix_append_right_inj effects).mp hfront
    have hlosses : losses new ≤ losses more := hnew.sublist.count_le _
    rw [losses_append, ups_append]
    omega

theorem Covered.mono (h : Covered untold effects) {later : Nat} (hle : untold ≤ later) : Covered later effects :=
  fun front hfront => Nat.le_trans (h front hfront) (Nat.add_le_add_left hle _)

namespace Circuit

open Relation

variable {k l : Circuit} {strand : Strand} {n₀ : Nat}

/-! ## Dials that are to be made known -/

/-- Whether a dial has connected that its strand has still to make known. -/
def announces (k : Circuit) : Bool := k.lock.holder.any fun strand => k.places strand = some .announcing

/-- Whoever has a dial to make known holds the lock. -/
theorem announces_iff (hk : Orderly k.lock k.places) :
    k.announces = true ↔ ∃ strand, k.places strand = some .announcing := by
  rw [announces, Option.any_eq_true]
  constructor
  · rintro ⟨strand, -, hplace⟩
    exact ⟨strand, of_decide_eq_true hplace⟩
  · rintro ⟨strand, hplace⟩
    exact ⟨strand, hk.holder_of_inside hplace nofun nofun, decide_eq_true hplace⟩

theorem announces_eq_false (hk : Orderly k.lock k.places) (hquiet : ∀ strand, k.places strand ≠ some .announcing) :
    k.announces = false :=
  Bool.eq_false_iff.mpr fun h => by
    obtain ⟨strand, hplace⟩ := (announces_iff hk).mp h
    exact hquiet strand hplace

/-- If nobody else comes to have a dial to make known, there is none that was not there before. -/
theorem announces_of_places (hk : Orderly k.lock k.places) (hl : Orderly l.lock l.places)
    (hplaces : ∀ strand, l.places strand = some .announcing → k.places strand = some .announcing)
    (h : l.announces = true) : k.announces = true := by
  obtain ⟨strand, hplace⟩ := (announces_iff hl).mp h
  exact (announces_iff hk).mpr ⟨strand, hplaces strand hplace⟩

theorem places_of_put {strand : Strand} {next : Option ConnectPlace} (hnext : next ≠ some .announcing)
    (other : Strand) (hother : (k.put strand next).places other = some .announcing) :
    k.places other = some .announcing := by
  have hne : other ≠ strand := by
    rintro rfl
    exact hnext ((places_put_self other next k).symm.trans hother)
  exact (places_put_of_ne hne next k).symm.trans hother

/-- Whoever dials has seen that nobody has a dial to make known. -/
theorem Dials.quiet {begun : List Effect} (h : k.Dials strand begun) (hk : Orderly k.lock k.places)
    (other : Strand) : k.places other ≠ some .announcing := by
  intro hother
  have hboth := hk.holder_of_inside hother nofun nofun
  obtain rfl : other = strand := Option.some.inj (hboth.symm.trans (h.holder hk))
  rcases h with ⟨hplace, -⟩ | ⟨hplace, -, -⟩ <;> cases hplace.symm.trans hother

/-! ## What counts -/

/-- What happens to the circuit, as far as the notices of the link go. -/
inductive Shift (k l : Circuit) : Prop
  /-- The link may go down, the receive task may be ended, and so may a strand that has a dial to make known. -/
  | quiet (more : List Effect) (hstarted : l.started = k.started) (hnumber : l.number = k.number)
      (hup : l.up = true → k.up = true) (hannounces : l.announces = true → k.announces = true)
      (hreceivers : ∀ task, l.receivers task = k.receivers task ∨
        k.receivers task ≠ none ∧ l.receivers task = some .over)
      (heffects : l.effects = k.effects ++ more) (hmore : ∀ effect ∈ more, effect.tells = false)
  | succeed {begun : List Effect} (hstarted : l.started = k.started) (hnumber : l.number = k.number + 1)
      (hbefore : k.announces = false) (hannounces : l.announces = true) (hreceivers : l.receivers = k.receivers)
      (heffects : l.effects = k.effects ++ (begun ++ [.dialed .connected]))
      (hbegun : ∀ effect ∈ begun, effect.tells = false)
  | announce (hstarted : l.started = k.started) (hnumber : l.number = k.number) (hup : l.up = k.up)
      (hannounces : k.announces = true) (hafter : l.announces = false) (hreceivers : l.receivers = k.receivers)
      (heffects : l.effects = k.effects ++ [.notified .connected])
  | launch {task : Nat} (hstarted : k.started = false)
      (hl : l = { k with started := true }.setReceiver task (some .connecting))
  | read {task : Nat} (hreceiver : k.receivers task = some .connecting) (hquiet : k.announces = false)
      (hfound : k.up = true ∨ k.effects.getLast? = some (.notified .connected))
      (hl : l = k.setReceiver task (some (.reading k.number)))
  | lose {task number : Nat} (hreceiver : k.receivers task = some (.reading number))
      (hgone : k.up = true → k.number ≠ number)
      (hl : l = (k.record [.notified .disconnected]).setReceiver task (some .connecting))

theorem Dials.begun_tells {begun : List Effect} (h : k.Dials strand begun) :
    ∀ effect ∈ begun, effect.tells = false := by
  rcases h with ⟨-, rfl⟩ | ⟨-, -, rfl⟩
  · exact fun _ hmem => absurd hmem List.not_mem_nil
  · intro effect heffect
    rw [List.mem_singleton.mp heffect]
    rfl

/-- Nothing is recorded. -/
theorem Shift.silent (hstarted : l.started = k.started) (hnumber : l.number = k.number)
    (hup : l.up = true → k.up = true) (hannounces : l.announces = true → k.announces = true)
    (hreceivers : ∀ task, l.receivers task = k.receivers task ∨
      k.receivers task ≠ none ∧ l.receivers task = some .over)
    (heffects : l.effects = k.effects) : k.Shift l :=
  .quiet [] hstarted hnumber hup hannounces hreceivers (by rw [heffects, List.append_nil]) fun _ hmem =>
    absurd hmem List.not_mem_nil

theorem Connect.shift (h : k.Connect strand l) (hk : Orderly k.lock k.places) : k.Shift l := by
  have hl := h.orderly hk
  have hsame (task : Nat) : k.receivers task = k.receivers task ∨
      k.receivers task ≠ none ∧ k.receivers task = some .over := .inl rfl
  have hput {next : Option ConnectPlace} (hnext : next ≠ some .announcing)
      (hplaces : l.places = (k.put strand next).places) : l.announces = true → k.announces = true :=
    announces_of_places hk hl fun other hother => places_of_put hnext other ((congrFun hplaces other).symm.trans hother)
  cases h with
  | ask | enter | wake | leave => exact .silent rfl rfl id (hput (by simp) rfl) hsame rfl
  | hangUp => exact .quiet [.closedLink] rfl rfl nofun (hput (by simp) rfl) hsame rfl (by simp [Effect.tells])
  | dial => exact .quiet [.dialing strand] rfl rfl id (hput (by simp) rfl) hsame rfl (by simp [Effect.tells])
  | @fail begun outcome _ hdials hfails =>
    refine .quiet (begun ++ [.dialed outcome]) rfl rfl id (hput (by simp) rfl) hsame rfl fun effect heffect => ?_
    rcases List.mem_append.mp heffect with hbegun | hdialed
    · exact hdials.begun_tells effect hbegun
    · rw [List.mem_singleton.mp hdialed]
      exact Effect.tells_dialed hfails
  | succeed hdials =>
    exact .succeed rfl rfl (announces_eq_false hk (hdials.quiet hk))
      ((announces_iff hl).mpr ⟨strand, places_put_self ..⟩) rfl rfl hdials.begun_tells
  | announce hplace =>
    exact .announce rfl rfl rfl ((announces_iff hk).mpr ⟨strand, hplace⟩)
      (announces_eq_false hl ((Connect.announce hplace).quiet_of_through hk (places_put_self ..))) rfl rfl

theorem Aside.shift (h : k.Aside l) (hk : Orderly k.lock k.places) : k.Shift l := by
  have hl := h.orderly hk
  have hsame (task : Nat) : k.receivers task = k.receivers task ∨
      k.receivers task ≠ none ∧ k.receivers task = some .over := .inl rfl
  cases h with
  | fall => exact .silent rfl rfl nofun id hsame rfl
  | hear => exact .silent rfl rfl id id hsame rfl
  | @begin task places _ hplaces =>
    refine .silent rfl rfl id (announces_of_places hk hl fun strand hstrand => ?_) hsame rfl
    by_cases htask : strand.task = task
    · rcases hplaces strand.branch with hnone | hasks
      · cases (hnone.symm.trans (if_pos htask).symm).trans hstrand
      · cases (hasks.symm.trans (if_pos htask).symm).trans hstrand
    · exact (if_neg htask).symm.trans hstrand
  | @record more hquiet =>
    exact .quiet more rfl rfl id id hsame rfl fun effect heffect => Effect.tells_of_aboutLink (hquiet effect heffect)
  | giveUp task =>
    refine .silent rfl rfl id (announces_of_places hk hl fun strand hstrand => ?_) (fun other => ?_) rfl
    · by_cases htask : strand.task = task
      · cases (if_pos htask).symm.trans hstrand
      · exact (if_neg htask).symm.trans hstrand
    · by_cases hother : other = task
      · subst hother
        cases hreceiver : k.receivers other with
        | none => simp [Circuit.giveUp, setReceiver, hreceiver]
        | some receiver => simp [Circuit.giveUp, setReceiver, hreceiver]
      · exact .inl (Function.update_of_ne hother _ _)
  | launch hstarted => exact .launch hstarted rfl
  | read hreceiver hquiet hfound => exact .read hreceiver (announces_eq_false hk hquiet) hfound rfl
  | lose hreceiver hgone => exact .lose hreceiver hgone rfl

theorem shift_refl (k : Circuit) : k.Shift k := .silent rfl rfl id id (fun _ => .inl rfl) rfl

/-- Every step is one shift, and asides after it. So the link comes up at most once in a step. -/
theorem Step.shift_asides {action : ClientAction} (h : k.Step action l) (hk : Orderly k.lock k.places) :
    ∃ m, k.Shift m ∧ Orderly m.lock m.places ∧ ReflTransGen Aside m l := by
  cases h with
  | go turn hgoes =>
    rcases hgoes.connect_or_asides hk with ⟨m, hconnect, hasides, -, -⟩ | ⟨-, hasides⟩
    · exact ⟨m, hconnect.shift hk, hconnect.orderly hk, hasides⟩
    · exact ⟨k, shift_refl k, hk, hasides⟩
  | call => exact ⟨k, shift_refl k, hk, .refl⟩
  | link _ hlink =>
    rcases hlink with rfl | rfl
    · exact ⟨_, shift_refl _, hk, .refl⟩
    · exact ⟨k, shift_refl k, hk, .single .fall⟩
  | pass _ silent => exact ⟨{ k with silent }, .silent rfl rfl id id (fun _ => .inl rfl) rfl, hk, .refl⟩

theorem kept_of_shift {P : Circuit → Prop} (h : ∀ {k l : Circuit}, k.Shift l → P k → P l) : Kept P where
  connect horder hconnect := h (hconnect.shift horder)
  aside horder haside := h (haside.shift horder)
  pass _ := h (.silent rfl rfl id id (fun _ => .inl rfl) rfl)

/-! ## What holds of the notices -/

/-- At most one task is the receive task, and only once it has been launched. -/
structure Lone (k : Circuit) : Prop where
  launched : ∀ task, k.receivers task ≠ none → k.started = true
  sole : ∀ task other, k.receivers task ≠ none → k.receivers other ≠ none → task = other

theorem receivers_setReceiver (task : Nat) (receiver : Option Receiver) (k : Circuit) (other : Nat) :
    other = task ∧ (k.setReceiver task receiver).receivers other = receiver ∨
      other ≠ task ∧ (k.setReceiver task receiver).receivers other = k.receivers other := by
  by_cases hother : other = task
  · subst hother
    exact .inl ⟨rfl, Function.update_self _ _ _⟩
  · exact .inr ⟨hother, Function.update_of_ne hother _ _⟩

/-- A task that sees to the link is in no read. -/
theorem reads_of_connecting {task other number : Nat}
    (h : (k.setReceiver task (some .connecting)).receivers other = some (.reading number)) :
    other ≠ task ∧ k.receivers other = some (.reading number) := by
  rcases receivers_setReceiver task (some .connecting) k other with ⟨-, hnow⟩ | ⟨hother, hsame⟩
  · cases hnow.symm.trans h
  · exact ⟨hother, hsame.symm.trans h⟩

/-- A task that is in a read has begun it now, or was in it before. -/
theorem reads_of_reading {task other now number : Nat}
    (h : (k.setReceiver task (some (.reading now))).receivers other = some (.reading number)) :
    number = now ∨ k.receivers other = some (.reading number) := by
  rcases receivers_setReceiver task (some (.reading now)) k other with ⟨-, hnow⟩ | ⟨-, hsame⟩
  · cases hnow.symm.trans h
    exact .inl rfl
  · exact .inr (hsame.symm.trans h)

/-- A task that has not been ended is in the read that it was in before. -/
theorem reads_of_quiet {was now : Option Receiver} {number : Nat}
    (hquiet : now = was ∨ was ≠ none ∧ now = some .over) (h : now = some (.reading number)) :
    was = some (.reading number) := by
  rcases hquiet with hsame | ⟨-, hover⟩
  · exact hsame.symm.trans h
  · cases hover.symm.trans h

/-- There is no receive task yet. -/
theorem Lone.receivers_eq_none (hk : Lone k) (hstarted : k.started = false) (task : Nat) :
    k.receivers task = none := by
  by_contra htask
  cases hstarted.symm.trans (hk.launched task htask)

/-- Only one task is the receive task. -/
theorem Lone.receiver_eq (hk : Lone k) {task other : Nat} {receiver receiver' : Receiver}
    (htask : k.receivers task = some receiver) (hother : k.receivers other = some receiver') :
    task = other ∧ receiver = receiver' := by
  obtain rfl := hk.sole task other (by rw [htask]; exact nofun) (by rw [hother]; exact nofun)
  exact ⟨rfl, Option.some.inj (htask.symm.trans hother)⟩

/-- The receive task goes on, and is still the only one. -/
theorem Lone.setReceiver {task : Nat} (hk : Lone k) (htask : k.receivers task ≠ none)
    (receiver : Option Receiver) : Lone (k.setReceiver task receiver) := by
  have hbefore (other : Nat) (hother : (k.setReceiver task receiver).receivers other ≠ none) :
      k.receivers other ≠ none := by
    rcases receivers_setReceiver task receiver k other with ⟨rfl, -⟩ | ⟨-, hsame⟩
    · exact htask
    · rwa [← hsame]
  exact ⟨fun other hother => hk.launched other (hbefore other hother),
    fun first second hfirst hsecond => hk.sole first second (hbefore first hfirst) (hbefore second hsecond)⟩

theorem Lone.shift (hk : Lone k) (h : k.Shift l) : Lone l := by
  cases h with
  | quiet _ hstarted _ _ _ hreceivers =>
    have hbefore (task : Nat) (h : l.receivers task ≠ none) : k.receivers task ≠ none :=
      (hreceivers task).elim (fun heq => heq ▸ h) And.left
    exact ⟨fun task h => hstarted.trans (hk.launched task (hbefore task h)),
      fun task other htask hother => hk.sole task other (hbefore task htask) (hbefore other hother)⟩
  | succeed hstarted _ _ _ hreceivers | announce hstarted _ _ _ _ hreceivers =>
    exact ⟨fun task h => hstarted.trans (hk.launched task (hreceivers ▸ h)),
      fun task other htask hother => hk.sole task other (hreceivers ▸ htask) (hreceivers ▸ hother)⟩
  | @launch task hstarted hl =>
    subst hl
    -- It is the first receive task, so there is no other.
    have honly (other : Nat) (h : ({ k with started := true }.setReceiver task
        (some .connecting)).receivers other ≠ none) : other = task := by
      rcases receivers_setReceiver task (some .connecting) { k with started := true } other with
        ⟨rfl, -⟩ | ⟨-, hsame⟩
      · rfl
      · exact absurd (hsame.trans (hk.receivers_eq_none hstarted other)) h
    exact ⟨fun _ _ => rfl, fun first second hfirst hsecond =>
      (honly first hfirst).trans (honly second hsecond).symm⟩
  | read hreceiver _ _ hl =>
    subst hl
    exact hk.setReceiver (by rw [hreceiver]; exact nofun) _
  | lose hreceiver _ hl =>
    subst hl
    have hrecord : Lone (k.record [.notified .disconnected]) := ⟨hk.launched, hk.sole⟩
    have htask : (k.record [.notified .disconnected]).receivers _ = some _ := hreceiver
    exact hrecord.setReceiver (by rw [htask]; exact nofun) _

/-- Whether the loss of the link cannot have been told yet: it is up, or still to be made known, or has been made
known just now. -/
def Fresh (k : Circuit) : Prop :=
  k.up = true ∨ k.announces = true ∨ k.effects.getLast? = some (.notified .connected)

/-- How the notices of a client whose link began with the number `n₀` are tied to its link and its reads, when so many
dials have connected that were never made known. -/
structure Tally (n₀ untold : Nat) (k : Circuit) : Prop where
  number : n₀ + connects k.effects = k.number
  told : ups k.effects + untold + k.announces.toNat = connects k.effects
  covered : Covered untold k.effects
  fresh : k.Fresh → losses k.effects < connects k.effects
  /-- The loss of the link that is read from has not been told, nor that of one after it. And nobody reads from a
  link that is still to be made known. -/
  reads : ∀ task number, k.receivers task = some (.reading number) →
    n₀ + losses k.effects < number ∧ number + k.announces.toNat ≤ k.number

theorem Tally.losses_le {untold : Nat} (hk : Tally n₀ untold k) : losses k.effects ≤ ups k.effects + untold :=
  hk.covered k.effects (List.prefix_refl _)

/-- Dials that are cut off before they are made known are all that adds to those that never are. -/
theorem Tally.quiet {untold : Nat} {more : List Effect} (hk : Tally n₀ untold k) (hnumber : l.number = k.number)
    (hup : l.up = true → k.up = true) (hannounces : l.announces = true → k.announces = true)
    (hreceivers : ∀ task number, l.receivers task = some (.reading number) →
      k.receivers task = some (.reading number))
    (heffects : l.effects = k.effects ++ more) (hmore : ∀ effect ∈ more, effect.tells = false) :
    ∃ later, Tally n₀ later l := by
  have hconnects : connects l.effects = connects k.effects := by simp [heffects, connects_eq_zero hmore]
  have hups : ups l.effects = ups k.effects := by simp [heffects, ups_eq_zero hmore]
  have hlosses : losses l.effects = losses k.effects := by simp [heffects, losses_eq_zero hmore]
  have hfresh (h : l.Fresh) : k.Fresh := by
    rcases h with h | h | h
    · exact .inl (hup h)
    · exact .inr (.inl (hannounces h))
    · exact .inr (.inr (getLast?_of_tells hmore (heffects ▸ h)))
  have hle : l.announces.toNat ≤ k.announces.toNat := by
    cases hl : l.announces with
    | false => exact Nat.zero_le _
    | true => rw [hannounces hl]
  have htold := hk.told
  refine ⟨untold + (k.announces.toNat - l.announces.toNat), ?_, by omega, ?_, fun h => ?_, fun task number h => ?_⟩
  · rw [hconnects, hnumber]
    exact hk.number
  · rw [heffects]
    refine (hk.covered.append ?_).mono (Nat.le_add_right _ _)
    rw [losses_eq_zero hmore]
    exact hk.losses_le
  · rw [hlosses, hconnects]
    exact hk.fresh (hfresh h)
  · obtain ⟨hfirst, hlast⟩ := hk.reads task number (hreceivers task number h)
    rw [hlosses, hnumber]
    exact ⟨hfirst, by omega⟩

theorem Tally.shift {untold : Nat} (hlone : Lone k) (hk : Tally n₀ untold k) (h : k.Shift l) :
    ∃ later, Tally n₀ later l := by
  have hle := hk.losses_le
  have hnumber := hk.number
  have htold := hk.told
  cases h with
  | quiet more _ hsame hup hannounces hreceivers heffects hmore =>
    exact hk.quiet hsame hup hannounces (fun task _ => reads_of_quiet (hreceivers task)) heffects hmore
  | @succeed begun _ hnext hbefore hannounces hreceivers heffects hbegun =>
    have hconnects : connects l.effects = connects k.effects + 1 := by simp [heffects, connects_eq_zero hbegun]
    have hups : ups l.effects = ups k.effects := by simp [heffects, ups_eq_zero hbegun]
    have hlosses : losses l.effects = losses k.effects := by simp [heffects, losses_eq_zero hbegun]
    rw [hbefore, Bool.toNat_false] at htold
    refine ⟨untold, by omega, ?_, ?_, fun _ => by omega, fun task number hreads => ?_⟩
    · rw [hannounces, Bool.toNat_true]
      omega
    · rw [heffects]
      refine hk.covered.append ?_
      rwa [losses_append, losses_eq_zero hbegun, losses_dialed]
    · have hreads' := hk.reads task number (hreceivers ▸ hreads)
      rw [hannounces, Bool.toNat_true]
      omega
  | announce _ hsame hup hannounces hafter hreceivers heffects =>
    have hconnects : connects l.effects = connects k.effects := by simp [heffects]
    have hups : ups l.effects = ups k.effects + 1 := by simp [heffects]
    have hlosses : losses l.effects = losses k.effects := by simp [heffects]
    have hfresh := hk.fresh (.inr (.inl hannounces))
    rw [hannounces, Bool.toNat_true] at htold
    refine ⟨untold, by omega, ?_, ?_, fun _ => by omega, fun task number hreads => ?_⟩
    · rw [hafter, Bool.toNat_false]
      omega
    · rw [heffects]
      exact hk.covered.append (by simpa using hle)
    · have hreads' := hk.reads task number (hreceivers ▸ hreads)
      rw [hafter, Bool.toNat_false]
      omega
  | launch _ hl =>
    subst hl
    exact ⟨untold, hnumber, htold, hk.covered, hk.fresh, fun other number hreads =>
      hk.reads other number (reads_of_connecting hreads).2⟩
  | @read task hreceiver hquiet hfound hl =>
    subst hl
    refine ⟨untold, hnumber, htold, hk.covered, hk.fresh, fun other number hreads => ?_⟩
    rcases reads_of_reading hreads with rfl | hreads
    · have hfresh := hk.fresh (hfound.imp id .inr)
      show n₀ + losses k.effects < k.number ∧ k.number + k.announces.toNat ≤ k.number
      rw [hquiet, Bool.toNat_false]
      omega
    · exact hk.reads other number hreads
  | @lose task number hreceiver hgone hl =>
    subst hl
    obtain ⟨hfirst, hlast⟩ := hk.reads task number hreceiver
    have hconnects : connects (k.effects ++ [.notified .disconnected]) = connects k.effects := by simp
    have hups : ups (k.effects ++ [.notified .disconnected]) = ups k.effects := by simp
    have hlosses : losses (k.effects ++ [.notified .disconnected]) = losses k.effects + 1 := by simp
    refine ⟨untold, hconnects.symm ▸ hnumber, ?_, hk.covered.append ?_, fun hfresh => ?_, fun other read hreads => ?_⟩
    · show ups (k.effects ++ _) + untold + k.announces.toNat = connects (k.effects ++ _)
      rw [hups, hconnects, htold]
    · rw [losses_disconnected]
      omega
    · show losses (k.effects ++ _) < connects (k.effects ++ _)
      rw [hlosses, hconnects]
      rcases hfresh with hup | hannounces | htold
      · -- The link that is up is a later one than that which was read from.
        have hlater : number ≠ k.number := (hgone hup).symm
        omega
      · have hannounces : k.announces = true := hannounces
        rw [hannounces, Bool.toNat_true] at hlast
        omega
      · cases List.getLast?_concat.symm.trans htold
    · -- Nobody else reads.
      obtain ⟨hother, hreads⟩ := reads_of_connecting hreads
      exact absurd (hlone.receiver_eq hreads hreceiver).1 hother

theorem kept_tally (n₀ : Nat) : Kept fun k => Lone k ∧ ∃ untold, Tally n₀ untold k :=
  kept_of_shift fun hshift ⟨hlone, _, hk⟩ => ⟨hlone.shift hshift, hk.shift hlone hshift⟩

end Circuit

namespace Client

variable {c : Client} {actions : List ClientAction}

/-- After every history of a new client on a link that is down, the notices fit the dials, the link and what
the receive task reads from. -/
theorem exists_tally_of_performAll? {settings : ClientSettings} {handlers : Handlers} {link : Link}
    (hdown : link.up = false) (h : (new settings handlers link).performAll? actions = some c) :
    Circuit.Lone c.circuit ∧ ∃ untold, Circuit.Tally link.number untold c.circuit := by
  refine circuit_induction (Circuit.kept_tally link.number) h ⟨⟨nofun, nofun⟩, 0, rfl, rfl, ?_, fun hfresh => ?_, nofun⟩
  · intro front hfront
    rw [List.prefix_nil.mp hfront]
    exact Nat.le_refl 0
  · rcases hfresh with hup | hannounces | htold
    · cases hdown.symm.trans hup
    · cases hannounces
    · cases htold

end Client

end AlarmPanel
