import Mathlib.Data.List.InsertIdx
import Mathlib.Data.List.Nodup
import Mathlib.Data.List.Perm.Basic
import AlarmPanel.Proofs.Panel.Moves

/-!
# Zone activity

Zone activity runs in the background, and more than one may be under way: one that has been stopped ends
only when it wakes. What keeps them apart is the generation in which each was started. The parts of a panel
that they depend on are its `Roster`; `Roster.Step` lists what an action can do to it, and
`SimulatedPanel.rosterStep_of_perform?` says that the list is complete.

After every history at most one activity is effective, and one that has been stopped turns no zone any more
(`SimulatedPanel.one_activity_effective`). Every move out of the disarmed state stops the activity, but
nothing keeps it from being started elsewhere, and there it goes on (`SimulatedPanel.disarmed_while_active_iff`).
-/

namespace AlarmPanel

/-- The parts of a panel that its zone activity depends on. -/
structure Roster where
  state : PanelState
  /-- How many zones the panel has. -/
  zones : Nat
  active : Bool
  generation : Nat
  /-- The generations of the activities that have not ended. -/
  running : List Nat

namespace Roster

/-- What an action can do to a roster, by the state in which it starts zone activity, if it does. -/
inductive Step (r : Roster) : Option PanelState → Roster → Prop
  | still : Step r none r
  | move (next : PanelState) :
      Step r none { r with state := next, active := r.active && decide (next = .disarmed) }
  | stop : Step r none { r with active := false }
  | start (hactive : r.active = false) (hzones : r.zones ≠ 0) :
      Step r (some r.state)
        { r with
          active := true
          generation := r.generation + 1
          running := r.running ++ [r.generation + 1] }
  /-- An activity that is not effective wakes, and ends. -/
  | cease (index g : Nat) (hg : r.running[index]? = some g)
      (hstopped : ¬(r.active = true ∧ r.generation = g)) :
      Step r none { r with running := r.running.eraseIdx index }
  /-- The effective activity turns a zone, which trips an armed panel. -/
  | turn (index g : Nat) (hg : r.running[index]? = some g) (hactive : r.active = true)
      (hgen : r.generation = g) :
      Step r none
        { r with
          state := if r.state = .armed then .entryDelay else r.state
          active := decide (r.state ≠ .armed)
          running := r.running.eraseIdx index ++ [g] }

/-- The activities are of different generations, none of them is to come, and while the panel is active the
latest of them is under way. -/
structure Fit (r : Roster) : Prop where
  zones_le : r.zones ≤ zoneCount
  zones_ne : r.active = true → r.zones ≠ 0
  nodup : r.running.Nodup
  generation_le : ∀ g ∈ r.running, g ≤ r.generation
  mem_running : r.active = true → r.generation ∈ r.running

variable {r s : Roster} {started : Option PanelState}

theorem Fit.step (hr : r.Fit) (h : Step r started s) : s.Fit := by
  cases h with
  | still => exact hr
  | move next =>
    have hactive (h : (r.active && decide (next = .disarmed)) = true) : r.active = true :=
      (Bool.and_eq_true_iff.mp h).1
    exact ⟨hr.zones_le, fun h => hr.zones_ne (hactive h), hr.nodup, hr.generation_le,
      fun h => hr.mem_running (hactive h)⟩
  | stop =>
    exact ⟨hr.zones_le, fun h => (nomatch h), hr.nodup, hr.generation_le, fun h => (nomatch h)⟩
  | start hactive hzones =>
    -- The new generation is later than all that are under way.
    have hnew : r.generation + 1 ∉ r.running := by
      intro hmem
      have hle := hr.generation_le _ hmem
      omega
    refine ⟨hr.zones_le, fun _ => hzones, ?_, fun g hg => ?_, fun _ => ?_⟩
    · exact List.nodup_append.mpr ⟨hr.nodup, List.nodup_singleton _, fun a ha b hb hab =>
        hnew (List.mem_singleton.mp hb ▸ hab ▸ ha)⟩
    · rcases List.mem_append.mp hg with hold | hlast
      · exact Nat.le_succ_of_le (hr.generation_le g hold)
      · exact Nat.le_of_eq (List.mem_singleton.mp hlast)
    · exact List.mem_append_right _ (List.mem_singleton_self _)
  | cease index g hg hstopped =>
    refine ⟨hr.zones_le, hr.zones_ne, hr.nodup.eraseIdx index,
      fun g hg => hr.generation_le g (List.mem_of_mem_eraseIdx hg), fun hactive => ?_⟩
    obtain ⟨latest, hlatest⟩ := List.mem_iff_getElem?.mp (hr.mem_running hactive)
    refine List.mem_eraseIdx_iff_getElem?.mpr ⟨latest, ?_, hlatest⟩
    rintro rfl
    exact hstopped ⟨hactive, Option.some.inj (hlatest.symm.trans hg)⟩
  | turn index g hg hactive hgen =>
    obtain ⟨hindex, hget⟩ := List.getElem?_eq_some_iff.mp hg
    -- The activity goes on under its generation, so the same ones are under way.
    have hperm : (r.running.eraseIdx index ++ [g]).Perm r.running := by
      rw [← hget]
      exact (List.perm_append_singleton _ _).trans (List.getElem_cons_eraseIdx_perm hindex)
    exact ⟨hr.zones_le, fun _ => hr.zones_ne hactive, hperm.nodup_iff.mpr hr.nodup,
      fun x hx => hr.generation_le x (hperm.mem_iff.mp hx),
      fun _ => hperm.mem_iff.mpr (hr.mem_running hactive)⟩

/-! ## The effective activity -/

/-- The generations of the activities that are effective. -/
def effective (r : Roster) : List Nat := r.running.filter fun g => r.active && g == r.generation

/-- An active panel has one effective activity, the latest, and one that is not active has none. -/
theorem Fit.effective_eq (hr : r.Fit) : r.effective = if r.active then [r.generation] else [] := by
  unfold effective
  cases hactive : r.active with
  | false => simp
  | true =>
    have hcount : r.running.count r.generation = 1 :=
      List.count_eq_one_of_mem hr.nodup (hr.mem_running hactive)
    simp only [Bool.true_and, if_true]
    rw [List.filter_beq, hcount]
    rfl

/-- An activity of this generation is not effective, and will not be. -/
def Spent (r : Roster) (g : Nat) : Prop := g ≤ r.generation ∧ ¬(r.active = true ∧ r.generation = g)

theorem Spent.step {g : Nat} (hg : r.Spent g) (h : Step r started s) : s.Spent g := by
  obtain ⟨hle, hnot⟩ := hg
  cases h with
  | still => exact ⟨hle, hnot⟩
  | move next => exact ⟨hle, fun hs => hnot ⟨(Bool.and_eq_true_iff.mp hs.1).1, hs.2⟩⟩
  | stop => exact ⟨hle, fun hs => (nomatch hs.1)⟩
  | start hactive hzones =>
    refine ⟨Nat.le_succ_of_le hle, fun hs => ?_⟩
    have hnext : r.generation + 1 = g := hs.2
    omega
  | cease index g hg hstopped => exact ⟨hle, hnot⟩
  | turn index g hg hactive hgen => exact ⟨hle, fun hs => hnot ⟨hactive, hs.2⟩⟩

/-! ## Where the activity runs -/

/-- A panel that is active only while it is disarmed stays so, unless its activity is started elsewhere. -/
theorem Step.disarmed_iff (h : Step r started s) (hr : r.active = true → r.state = .disarmed) :
    (s.active = true → s.state = .disarmed) ↔ ∀ state, started = some state → state = .disarmed := by
  cases h with
  | still => exact ⟨fun _ _ h => (nomatch h), fun _ => hr⟩
  | move next =>
    exact ⟨fun _ _ h => (nomatch h), fun _ h => of_decide_eq_true (Bool.and_eq_true_iff.mp h).2⟩
  | stop => exact ⟨fun _ _ h => (nomatch h), fun _ h => (nomatch h)⟩
  | start hactive hzones =>
    exact ⟨fun hs state h => Option.some.inj h ▸ hs rfl, fun hs _ => hs _ rfl⟩
  | cease index g hg hstopped => exact ⟨fun _ _ h => (nomatch h), fun _ => hr⟩
  | turn index g hg hactive hgen =>
    have hstate := hr hactive
    refine ⟨fun _ _ h => (nomatch h), fun _ _ => ?_⟩
    simp [hstate]

/-- A move to any state but the disarmed one ends the activity. -/
theorem Step.active_eq_false (h : Step r started s) (hmoves : s.state ≠ r.state)
    (hstate : s.state ≠ .disarmed) : s.active = false := by
  cases h with
  | still => exact absurd rfl hmoves
  | move next => simp [show next ≠ .disarmed from hstate]
  | stop => rfl
  | start hactive hzones => exact absurd rfl hmoves
  | cease index g hg hstopped => exact absurd rfl hmoves
  | turn index g hg hactive hgen =>
    have harmed : r.state = .armed := Decidable.byContradiction fun hnot => hmoves (if_neg hnot)
    simp [harmed]

end Roster

namespace SimulatedPanel

variable {p q : SimulatedPanel} {action : PanelAction}

def roster (p : SimulatedPanel) : Roster :=
  { state := p.state, zones := p.zones.length, active := p.active, generation := p.activityGeneration,
    running := p.activities.map (·.generation) }

/-- The state in which an action starts zone activity, if it does. -/
def startState? (action : PanelAction) (p : SimulatedPanel) : Option PanelState :=
  match action with
  | .startActivity => if p.active || p.zones.isEmpty then none else some p.state
  | _ => none

/-! ## Operations -/

theorem roster_arm (mode : ArmingMode) (p : SimulatedPanel) :
    (p.arm mode).roster = { p.roster with state := .exitDelay, active := false } := by
  rw [arm_eq]
  rfl

theorem roster_trip (p : SimulatedPanel) :
    p.trip.roster = { p.roster with state := .entryDelay, active := false } := by
  rw [trip_eq]
  rfl

theorem roster_disarm (p : SimulatedPanel) : p.disarm.roster = { p.roster with state := .disarmed } := by
  rw [disarm_eq]
  rfl

theorem roster_turnZone (number : UInt8) (unsealed : Bool) (p : SimulatedPanel) :
    (p.turnZone number unsealed).roster = p.roster := by
  rw [turnZone_eq]
  simp only [roster, List.length_set]

theorem roster_answer (update : StatusUpdate) (p : SimulatedPanel) :
    (p.answer update).roster = p.roster := by
  rw [answer, send_eq]
  rfl

theorem roster_setAuxOutput {number : UInt8} {on : Bool} (h : p.setAuxOutput number on = .ok q) :
    q.roster = p.roster := by
  unfold setAuxOutput at h
  split at h
  next =>
    cases h
    rfl
  next => cases h

/-- A zone that is turned leaves the roster alone, or trips the panel. -/
theorem roster_setZone {number : UInt8} {unsealed : Bool} (h : p.setZone number unsealed = .ok q) :
    q.roster =
      { p.roster with
        state := if p.state = .armed then .entryDelay else p.state
        active := p.active && decide (p.state ≠ .armed) } := by
  obtain ⟨-, rfl⟩ := setZone_eq_ok_iff.mp h
  split
  next harmed =>
    rw [roster_trip, roster_turnZone]
    simp [harmed]
  next hnot =>
    rw [roster_turnZone]
    simp [roster, hnot]

/-- An activity that wakes ends if it is not effective. The effective one turns a zone and rests again. -/
theorem wake_cases (hp : p.roster.Fit) {index : Nat} {a : ZoneActivity} (ha : p.activities[index]? = some a)
    (drawnZone restMillis : Nat) :
    (¬(p.active = true ∧ p.activityGeneration = a.generation) ∧
        p.wake index drawnZone restMillis = { p with activities := p.activities.eraseIdx index }) ∨
      (p.active = true ∧ p.activityGeneration = a.generation) ∧
        ∃ number unsealed q,
          ({ p with activities := p.activities.eraseIdx index } : SimulatedPanel).setZone number unsealed =
              .ok q ∧
            p.wake index drawnZone restMillis =
              { q with activities := q.activities ++ [⟨a.generation, p.now + restMillis⟩] } := by
  by_cases heffective : p.active = true ∧ p.activityGeneration = a.generation
  · have hzones : p.zones.length ≠ 0 := hp.zones_ne heffective.1
    have hlt := Nat.mod_lt drawnZone (Nat.pos_of_ne_zero hzones)
    have hle : p.zones.length ≤ zoneCount := hp.zones_le
    let place := drawnZone % p.zones.length
    -- The panel has at most 32 zones, so the number of the zone that is drawn is one of theirs.
    have hnumber : (UInt8.ofNat (place + 1)).toNat = place + 1 :=
      UInt8.toNat_ofNat_of_lt' (by simp only [zoneCount, UInt8.size] at *; omega)
    have hturns : ({ p with activities := p.activities.eraseIdx index } : SimulatedPanel).setZone
        (UInt8.ofNat (place + 1)) (!(p.zones.getD place false)) = .ok _ :=
      setZone_eq_ok_iff.mpr ⟨⟨by omega, by rw [hnumber]; exact hlt⟩, rfl⟩
    have hbeq : (p.active && p.activityGeneration == a.generation) = true := by
      rw [Bool.and_eq_true, beq_iff_eq]
      exact heffective
    refine .inr ⟨heffective, _, _, _, hturns, ?_⟩
    unfold wake
    rw [ha]
    dsimp only
    rw [if_pos hbeq, hturns]
  · have hbeq : (p.active && p.activityGeneration == a.generation) = false := by
      rw [← Bool.not_eq_true, Bool.and_eq_true, beq_iff_eq]
      exact heffective
    refine .inl ⟨heffective, ?_⟩
    simp only [wake, ha, hbeq, Bool.false_eq_true, if_false]

/-! ## Every action is a step of the roster -/

theorem rosterStep_of_eq (h : q.roster = p.roster) : Roster.Step p.roster none q.roster := by
  rw [h]
  exact .still

theorem rosterStep_of_arm (mode : ArmingMode) (p : SimulatedPanel) :
    Roster.Step p.roster none (p.arm mode).roster := by
  rw [roster_arm]
  simpa using Roster.Step.move (r := p.roster) .exitDelay

theorem rosterStep_of_trip (p : SimulatedPanel) : Roster.Step p.roster none p.trip.roster := by
  rw [roster_trip]
  simpa using Roster.Step.move (r := p.roster) .entryDelay

theorem rosterStep_of_disarm (p : SimulatedPanel) : Roster.Step p.roster none p.disarm.roster := by
  rw [roster_disarm]
  simpa using Roster.Step.move (r := p.roster) .disarmed

theorem rosterStep_of_setZone {number : UInt8} {unsealed : Bool}
    (h : p.setZone number unsealed = .ok q) : Roster.Step p.roster none q.roster := by
  rw [roster_setZone h]
  by_cases harmed : p.state = .armed
  · simpa [harmed] using Roster.Step.move (r := p.roster) .entryDelay
  · simpa [harmed, roster] using Roster.Step.still (r := p.roster)

theorem rosterStep_of_accept (text : String) (p : SimulatedPanel) :
    Roster.Step p.roster none (p.accept text).roster := by
  unfold accept
  split
  next command _ =>
    cases command with
    | arm mode => exact rosterStep_of_arm mode p
    | disarm => exact rosterStep_of_disarm p
    | setAuxOutput number on =>
      simp only [obey]
      split
      next q hq => exact rosterStep_of_eq (roster_setAuxOutput hq)
      next => exact .still
    | askZones | askArming | askVersion | askAuxOutputs => exact .still
  next => exact .still

theorem rosterStep_of_startActivity (p : SimulatedPanel) :
    Roster.Step p.roster (p.startState? .startActivity) p.startActivity.roster := by
  unfold startActivity startState?
  by_cases hidle : (p.active || p.zones.isEmpty) = true
  · simp only [if_pos hidle]
    exact .still
  · simp only [if_neg hidle]
    rw [Bool.or_eq_true, not_or, Bool.not_eq_true, List.isEmpty_iff_length_eq_zero] at hidle
    simpa [roster] using Roster.Step.start (r := p.roster) hidle.1 hidle.2

theorem rosterStep_of_expire (index : Nat) (p : SimulatedPanel) :
    Roster.Step p.roster none (p.expire index).roster := by
  unfold expire
  split
  next => exact .still
  next t _ =>
    dsimp only
    split
    next =>
      rw [moveTo_eq]
      exact .move t.next
    next => exact .still

theorem rosterStep_of_wake (hp : p.roster.Fit) {index : Nat} {a : ZoneActivity}
    (ha : p.activities[index]? = some a) (drawnZone restMillis : Nat) :
    Roster.Step p.roster none (p.wake index drawnZone restMillis).roster := by
  have hg : p.roster.running[index]? = some a.generation := by
    simp [roster, ha]
  rcases wake_cases hp ha drawnZone restMillis with ⟨hnot, hwake⟩ | ⟨heffective, number, unsealed, q, hq, hwake⟩
  · rw [hwake]
    simpa [roster, List.eraseIdx_map] using Roster.Step.cease index a.generation hg hnot
  · have hroster := roster_setZone hq
    have hrunning : q.activities.map (·.generation) = (p.activities.eraseIdx index).map (·.generation) :=
      congrArg Roster.running hroster
    have hafter : (p.wake index drawnZone restMillis).roster =
        { q.roster with running := p.roster.running.eraseIdx index ++ [a.generation] } := by
      rw [hwake]
      simp [roster, hrunning, List.eraseIdx_map]
    rw [hafter, hroster]
    simpa [roster, heffective.1] using
      Roster.Step.turn index a.generation hg heffective.1 heffective.2

/-- The activity that an action wakes is on the list, and its rest is over. -/
theorem exists_activity_of_perform? {index drawnZone restMillis : Nat}
    (h : p.perform? (.wake index drawnZone restMillis) = some q) :
    ∃ a, p.activities[index]? = some a ∧ q = p.wake index drawnZone restMillis := by
  have hq := wake_of_perform? h
  simp only [perform?] at h
  split at h
  next a ha => exact ⟨a, ha, hq⟩
  next => cases h

/-- Whatever happens to a panel, its roster makes a step. -/
theorem rosterStep_of_perform? (hp : p.roster.Fit) (h : p.perform? action = some q) :
    Roster.Step p.roster (p.startState? action) q.roster := by
  cases action with
  | arm mode =>
    cases h
    exact rosterStep_of_arm mode p
  | disarm =>
    cases h
    exact rosterStep_of_disarm p
  | trip =>
    cases h
    exact rosterStep_of_trip p
  | setZone number unsealed => exact rosterStep_of_setZone (toOption_eq_some_iff.mp h)
  | setAuxOutput number on => exact rosterStep_of_eq (roster_setAuxOutput (toOption_eq_some_iff.mp h))
  | accept text =>
    cases h
    exact rosterStep_of_accept text p
  | sendReply index =>
    obtain ⟨-, hq⟩ := Option.ite_none_right_eq_some.mp h
    cases hq
    refine rosterStep_of_eq ?_
    unfold sendReply
    split
    next => rfl
    next => exact roster_answer _ _
  | startActivity =>
    cases h
    exact rosterStep_of_startActivity p
  | stopActivity =>
    cases h
    exact .stop
  | expire index =>
    rw [expire_of_perform? h]
    exact rosterStep_of_expire index p
  | wake index drawnZone restMillis =>
    obtain ⟨a, ha, rfl⟩ := exists_activity_of_perform? h
    exact rosterStep_of_wake hp ha drawnZone restMillis
  | pass millis =>
    obtain ⟨-, hq⟩ := Option.ite_none_right_eq_some.mp h
    cases hq
    exact .still

/-! ## Histories -/

theorem fit_new (settings : PanelSettings) (clock : Nat → Timestamp) :
    (new settings clock).roster.Fit := by
  refine ⟨?_, fun h => (nomatch h), List.nodup_nil, fun _ hg => absurd hg List.not_mem_nil,
    fun h => (nomatch h)⟩
  simp only [roster, new, List.length_replicate]
  exact Nat.min_le_right ..

theorem fit_of_performAll? {actions : List PanelAction} (h : p.performAll? actions = some q)
    (hp : p.roster.Fit) : q.roster.Fit := by
  induction actions generalizing p with
  | nil =>
    cases h
    exact hp
  | cons action actions ih =>
    obtain ⟨r, hr : p.perform? action = some r, hq⟩ := Option.bind_eq_some_iff.mp h
    exact ih hq (hp.step (rosterStep_of_perform? hp hr))

theorem spent_of_performAll? {actions : List PanelAction} {g : Nat} (h : p.performAll? actions = some q)
    (hp : p.roster.Fit) (hg : p.roster.Spent g) : q.roster.Spent g := by
  induction actions generalizing p with
  | nil =>
    cases h
    exact hg
  | cons action actions ih =>
    obtain ⟨r, hr : p.perform? action = some r, hq⟩ := Option.bind_eq_some_iff.mp h
    have hstep := rosterStep_of_perform? hp hr
    exact ih hq (hp.step hstep) (hg.step hstep)

/-! ## One activity -/

/-- The activities that turn a zone when they wake. -/
def effective (p : SimulatedPanel) : List ZoneActivity :=
  p.activities.filter fun a => p.active && a.generation == p.activityGeneration

theorem map_effective (p : SimulatedPanel) :
    p.effective.map (·.generation) = p.roster.effective := by
  unfold effective Roster.effective roster
  rw [List.filter_map]
  rfl

theorem spent_of_not_mem_effective (hp : p.roster.Fit) {a : ZoneActivity} (ha : a ∈ p.activities)
    (hnot : a ∉ p.effective) : p.roster.Spent a.generation := by
  refine ⟨hp.generation_le _ (List.mem_map_of_mem ha), fun h => hnot (List.mem_filter.mpr ⟨ha, ?_⟩)⟩
  obtain ⟨hactive, hgen⟩ : p.active = true ∧ p.activityGeneration = a.generation := h
  rw [hactive, hgen, beq_self_eq_true, Bool.and_self]

/-- An activity that is spent does nothing but end. -/
theorem wake_of_spent (hp : p.roster.Fit) {index : Nat} {a : ZoneActivity}
    (ha : p.activities[index]? = some a) (hspent : p.roster.Spent a.generation)
    (drawnZone restMillis : Nat) :
    p.wake index drawnZone restMillis = { p with activities := p.activities.eraseIdx index } := by
  rcases wake_cases hp ha drawnZone restMillis with ⟨-, hwake⟩ | ⟨heffective, -⟩
  · exact hwake
  · exact absurd heffective hspent.2

variable {settings : PanelSettings} {clock : Nat → Timestamp} {actions : List PanelAction}

/-- After every history of a new panel its activities are of different generations and at most one is
effective; one is if and only if the panel is active. It is no longer active once it is told to stop or has
moved to another state than the disarmed one, and an activity that is not effective never turns a zone again,
whatever happens before it wakes. -/
theorem one_activity_effective (h : (new settings clock).performAll? actions = some p) :
    (p.activities.map (·.generation)).Nodup ∧ p.effective.length ≤ 1 ∧
      (p.active = true ↔ ∃ a, p.effective = [a]) ∧
      (∀ action q, p.perform? action = some q →
        action = .stopActivity ∨ q.state ≠ p.state ∧ q.state ≠ .disarmed → q.active = false) ∧
      ∀ a ∈ p.activities, a ∉ p.effective → ∀ later q, p.performAll? later = some q →
        ∀ index b, q.activities[index]? = some b → b.generation = a.generation →
          b ∉ q.effective ∧
            ∀ drawnZone restMillis r, q.perform? (.wake index drawnZone restMillis) = some r →
              r = { q with activities := q.activities.eraseIdx index } := by
  have hp := fit_of_performAll? h (fit_new settings clock)
  have heffective : p.effective.map (·.generation) = if p.active then [p.activityGeneration] else [] :=
    (map_effective p).trans hp.effective_eq
  refine ⟨hp.nodup, ?_, ⟨fun hactive => ?_, ?_⟩, fun action q hq hstops => ?_,
    fun a ha hnot later q hq index b hb hgen => ?_⟩
  · have hlength := congrArg List.length heffective
    rw [List.length_map] at hlength
    rw [hlength]
    split <;> simp
  · rw [if_pos hactive] at heffective
    obtain ⟨a, ha, -⟩ := List.map_eq_singleton_iff.mp heffective
    exact ⟨a, ha⟩
  · rintro ⟨a, ha⟩
    by_contra hactive
    rw [ha, if_neg hactive] at heffective
    cases heffective
  · rcases hstops with rfl | ⟨hmoves, hstate⟩
    · cases hq
      rfl
    · exact (rosterStep_of_perform? hp hq).active_eq_false hmoves hstate
  · have hspent : q.roster.Spent b.generation := by
      rw [hgen]
      exact spent_of_performAll? hq hp (spent_of_not_mem_effective hp ha hnot)
    refine ⟨fun hb => hspent.2 ?_, fun drawnZone restMillis r hr => ?_⟩
    · obtain ⟨hactive, hbeq⟩ := Bool.and_eq_true_iff.mp (List.mem_filter.mp hb).2
      exact ⟨hactive, (beq_iff_eq.mp hbeq).symm⟩
    · rw [wake_of_perform? hr]
      exact wake_of_spent (fit_of_performAll? hq hp) hb hspent drawnZone restMillis

/-- An activity that is stopped while it rests, and another one that is started before it wakes: only the new
one is effective, and the old one ends without turning a zone. -/
theorem one_activity_effective_restarted :
    let p₀ := new .default fun _ => ⟨⟨2024, 1, 1, by decide⟩, 0, 0, 0, by decide⟩
    ∃ p q r, p₀.performAll? [.startActivity, .wake 0 2 1000, .stopActivity, .startActivity] = some p ∧
      p.active = true ∧ p.effective.length ≤ 1 ∧ p.activities = [⟨1, 1000⟩, ⟨2, 0⟩] ∧
      p.performAll? [.wake 1 5 3000, .pass 1000] = some q ∧
      q.perform? (.wake 0 4 1000) = some r ∧ r = { q with activities := [⟨2, 3000⟩] } := by
  intro p₀
  have hrun : (p₀.performAll? [.startActivity, .wake 0 2 1000, .stopActivity, .startActivity]).any
      (fun p => p.active = true ∧ p.activities = [⟨1, 1000⟩, ⟨2, 0⟩] ∧ ⟨1, 1000⟩ ∉ p.effective ∧
        (p.performAll? [.wake 1 5 3000, .pass 1000]).any fun q =>
          q.activities = [⟨1, 1000⟩, ⟨2, 3000⟩] ∧ (q.perform? (.wake 0 4 1000)).isSome) := by
    decide +kernel
  obtain ⟨p, hp, hpq⟩ := (Option.any_eq_true _ _).mp hrun
  obtain ⟨hactive, hactivities, hnot, hpq⟩ := of_decide_eq_true hpq
  obtain ⟨q, hq, hqr⟩ := (Option.any_eq_true _ _).mp hpq
  obtain ⟨hresting, hsome⟩ := of_decide_eq_true hqr
  obtain ⟨r, hr⟩ := Option.isSome_iff_exists.mp hsome
  obtain ⟨-, hlength, -, -, hspent⟩ := one_activity_effective hp
  have hmem : ⟨1, 1000⟩ ∈ p.activities := by
    rw [hactivities]
    exact List.mem_cons_self
  have hold : q.activities[0]? = some ⟨1, 1000⟩ := by
    rw [hresting]
    rfl
  have hend := (hspent _ hmem hnot _ q hq 0 _ hold rfl).2 4 1000 r hr
  rw [hresting] at hend
  exact ⟨p, q, r, hp, hactive, hlength, hactivities, hq, hr, hend⟩

/-! ## Active while disarmed -/

/-- A property that a panel has in every state of a history. -/
def Throughout (P : SimulatedPanel → Prop) : List PanelAction → SimulatedPanel → Prop
  | [], p => P p
  | action :: actions, p => P p ∧ ∀ q, p.perform? action = some q → Throughout P actions q

/-- The states in which zone activity is started, in a history. -/
def starts : List PanelAction → SimulatedPanel → List PanelState
  | [], _ => []
  | action :: actions, p =>
    (p.startState? action).toList ++ ((p.perform? action).map (starts actions)).getD []

theorem Throughout.first {P : SimulatedPanel → Prop} (h : Throughout P actions p) : P p := by
  cases actions with
  | nil => exact h
  | cons => exact h.1

theorem Throughout.last {P : SimulatedPanel → Prop} (h : Throughout P actions p)
    (hq : p.performAll? actions = some q) : P q := by
  induction actions generalizing p with
  | nil =>
    cases hq
    exact h
  | cons action actions ih =>
    obtain ⟨r, hr : p.perform? action = some r, hq⟩ := Option.bind_eq_some_iff.mp hq
    exact ih (h.2 r hr) hq

theorem starts_cons (actions : List PanelAction) (h : p.perform? action = some q) :
    starts (action :: actions) p = (p.startState? action).toList ++ starts actions q := by
  rw [starts, h, Option.map_some, Option.getD_some]

/-- A panel that is active only while it is disarmed stays so if and only if its activity is started only
while it is disarmed. -/
theorem throughout_disarmed_iff (h : p.performAll? actions = some q) (hfit : p.roster.Fit)
    (hp : p.active = true → p.state = .disarmed) :
    Throughout (fun r => r.active = true → r.state = .disarmed) actions p ↔
      ∀ state ∈ starts actions p, state = .disarmed := by
  induction actions generalizing p with
  | nil => exact ⟨fun _ _ hstate => absurd hstate List.not_mem_nil, fun _ => hp⟩
  | cons action actions ih =>
    obtain ⟨r, hr : p.perform? action = some r, hq⟩ := Option.bind_eq_some_iff.mp h
    have hstep := rosterStep_of_perform? hfit hr
    have hone : (r.active = true → r.state = .disarmed) ↔
        ∀ state, p.startState? action = some state → state = .disarmed := hstep.disarmed_iff hp
    rw [starts_cons actions hr, List.forall_mem_append]
    simp only [Option.mem_toList]
    constructor
    · intro hall
      have hrest := hall.2 r hr
      exact ⟨hone.mp hrest.first, (ih hq (hfit.step hstep) hrest.first).mp hrest⟩
    · rintro ⟨hstart, hstarts⟩
      refine ⟨hp, fun s hs => ?_⟩
      obtain rfl : s = r := Option.some.inj (hs.symm.trans hr)
      exact (ih hq (hfit.step hstep) (hone.mpr hstart)).mpr hstarts

/-- In every state of a history a panel is active only while it is disarmed if and only if its activity is
started only while it is disarmed. Then an activity that wakes leaves the state alone, and turns a zone only
while the panel is disarmed. -/
theorem disarmed_while_active_iff (h : (new settings clock).performAll? actions = some p) :
    (Throughout (fun q => q.active = true → q.state = .disarmed) actions (new settings clock) ↔
      ∀ state ∈ starts actions (new settings clock), state = .disarmed) ∧
    ((∀ state ∈ starts actions (new settings clock), state = .disarmed) →
      ∀ index drawnZone restMillis q, p.perform? (.wake index drawnZone restMillis) = some q →
        q.state = p.state ∧ (q.zones ≠ p.zones → p.state = .disarmed)) := by
  have hfit := fit_new settings clock
  have hiff := throughout_disarmed_iff h hfit fun hactive => (nomatch hactive)
  refine ⟨hiff, fun hstarts index drawnZone restMillis q hq => ?_⟩
  have hdisarmed := (hiff.mpr hstarts).last h
  have hp := fit_of_performAll? h hfit
  obtain ⟨a, ha, rfl⟩ := exists_activity_of_perform? hq
  rcases wake_cases hp ha drawnZone restMillis with ⟨-, hwake⟩ | ⟨⟨hactive, -⟩, number, unsealed, r, hr, hwake⟩
  · rw [hwake]
    exact ⟨rfl, fun hzones => absurd rfl hzones⟩
  · have hstate := hdisarmed hactive
    refine ⟨?_, fun _ => hstate⟩
    have hroster := congrArg Roster.state (roster_setZone hr)
    rw [hwake]
    refine hroster.trans ?_
    simp [hstate]

/-- Activity that is started while the panel is disarmed turns a zone of it. -/
theorem disarmed_while_active_iff_started :
    let p₀ := new .default fun _ => ⟨⟨2024, 1, 1, by decide⟩, 0, 0, 0, by decide⟩
    ∃ p q, p₀.performAll? [.startActivity] = some p ∧ p.active = true ∧
      Throughout (fun q => q.active = true → q.state = .disarmed) [.startActivity] p₀ ∧
      p.perform? (.wake 0 2 1000) = some q ∧ q.zones ≠ p.zones ∧ q.state = p.state ∧
        p.state = .disarmed := by
  intro p₀
  have hrun : (p₀.performAll? [.startActivity]).any (fun p => p.active = true ∧
      (p.perform? (.wake 0 2 1000)).any fun q => q.zones ≠ p.zones) := by
    decide +kernel
  have hstarts : ∀ state ∈ starts [.startActivity] p₀, state = .disarmed := by decide +kernel
  obtain ⟨p, hp, hpq⟩ := (Option.any_eq_true _ _).mp hrun
  obtain ⟨hactive, hpq⟩ := of_decide_eq_true hpq
  obtain ⟨q, hq, hzones⟩ := (Option.any_eq_true _ _).mp hpq
  have hzones := of_decide_eq_true hzones
  obtain ⟨hiff, hwake⟩ := disarmed_while_active_iff hp
  obtain ⟨hstate, hturns⟩ := hwake hstarts 0 2 1000 q hq
  exact ⟨p, q, hp, hactive, hiff.mpr hstarts, hq, hzones, hstate, hturns hzones⟩

/-- Nothing keeps activity from being started on an armed panel, and there it turns a zone and trips it. -/
theorem active_while_armed :
    let p₀ := new .default fun _ => ⟨⟨2024, 1, 1, by decide⟩, 0, 0, 0, by decide⟩
    ∃ p q, p₀.performAll? [.arm .away, .pass 10000, .expire 0, .startActivity] = some p ∧
      p.active = true ∧ p.state = .armed ∧ p.perform? (.wake 0 2 1000) = some q ∧ q.zones ≠ p.zones ∧
        q.state = .entryDelay := by
  intro p₀
  have hrun : (p₀.performAll? [.arm .away, .pass 10000, .expire 0, .startActivity]).any
      (fun p => p.active = true ∧ p.state = .armed ∧
        (p.perform? (.wake 0 2 1000)).any fun q => q.zones ≠ p.zones ∧ q.state = .entryDelay) := by
    decide +kernel
  obtain ⟨p, hp, hpq⟩ := (Option.any_eq_true _ _).mp hrun
  obtain ⟨hactive, harmed, hpq⟩ := of_decide_eq_true hpq
  obtain ⟨q, hq, hend⟩ := (Option.any_eq_true _ _).mp hpq
  obtain ⟨hzones, htripped⟩ := of_decide_eq_true hend
  exact ⟨p, q, hp, hactive, harmed, hq, hzones, htripped⟩

end SimulatedPanel

end AlarmPanel
