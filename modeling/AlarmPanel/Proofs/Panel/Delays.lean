import AlarmPanel.Proofs.Panel.Moves

/-!
# Delays that have been overtaken do nothing

A delayed transition is current while its generation is the panel's. `Schedule.Timely` ties the current ones
to the state: only in the two delays is there one, it began with the latest movement, and it is not overdue.
Every step of the schedule preserves this (`Schedule.Timely.step`), so it holds after every history of a new
panel (`SimulatedPanel.timely_of_performAll?`), whatever delays are still under way from before.
-/

namespace AlarmPanel

/-- How long an exit delay lasts, in milliseconds: as it is set, up to the longest pause. -/
def PanelSettings.exitPause (s : PanelSettings) : Nat := min s.exitMillis.toNat longestPause

/-- How long an entry delay lasts, in milliseconds: as it is set, up to the longest pause. -/
def PanelSettings.entryPause (s : PanelSettings) : Nat := min s.entryMillis.toNat longestPause

theorem Duration.pauseMillis_ofMillis (ms : UInt64) :
    (Duration.ofMillis ms).pauseMillis = Nat.min ms.toNat longestPause := by
  rw [pauseMillis, ceilMillis_ofMillis]

namespace Schedule

/-- The delayed transitions that have not been overtaken. -/
def current (s : Schedule) : List DelayedTransition :=
  s.delayed.filter fun t => t.generation = s.generation

/-- What a state says about the current delayed transitions, the mode and the latest movement. -/
def Standing (s : Schedule) (latest : Option (Nat × Movement)) : Prop :=
  match s.state with
  | .disarmed => s.current = [] ∧ s.mode = none
  | .exitDelay =>
    s.mode.isSome = true ∧ ∃ time, latest = some (time, .arming) ∧
      s.current = [⟨s.generation, .armed, time + s.settings.exitPause⟩]
  | .armed => s.current = [] ∧ s.mode.isSome = true
  | .entryDelay =>
    ∃ time, latest = some (time, .tripping) ∧
      s.current = [⟨s.generation, .tripped, time + s.settings.entryPause⟩]
  | .tripped => s.current = []

/-- No delayed transition is from a generation to come or overdue, and the current ones are as the state
says. -/
structure Timely (s : Schedule) (latest : Option (Nat × Movement)) : Prop where
  generation_le : ∀ t ∈ s.delayed, t.generation ≤ s.generation
  now_le : ∀ t ∈ s.delayed, s.now ≤ t.due
  standing : s.Standing latest

variable {s : Schedule} {latest : Option (Nat × Movement)}

/-! ## What is current -/

/-- A new generation overtakes every delayed transition. -/
theorem filter_next_generation (hle : ∀ t ∈ s.delayed, t.generation ≤ s.generation) :
    s.delayed.filter (fun t => t.generation = s.generation + 1) = [] := by
  rw [List.filter_eq_nil_iff]
  intro t ht
  have := hle t ht
  simp only [decide_eq_true_eq]
  omega

theorem current_begin (hle : ∀ t ∈ s.delayed, t.generation ≤ s.generation) (millis : UInt64)
    (next : PanelState) :
    (s.begin millis next).current =
      [⟨s.generation + 1, next, s.now + Nat.min millis.toNat longestPause⟩] := by
  simp only [current, begin, List.filter_append, filter_next_generation hle,
    Duration.pauseMillis_ofMillis]
  simp

/-- Where a delayed transition stands among the current ones, if it is one of them. -/
theorem exists_current_split {index : Nat} {t : DelayedTransition} (ht : s.delayed[index]? = some t) :
    ∃ before after,
      s.current = before ++ (if s.generation = t.generation then [t] else []) ++ after ∧
        ∀ state, ({ s with state, delayed := s.delayed.eraseIdx index } : Schedule).current =
          before ++ after := by
  let isCurrent (t : DelayedTransition) : Bool := t.generation = s.generation
  refine ⟨(s.delayed.take index).filter isCurrent, (s.delayed.drop (index + 1)).filter isCurrent,
    ?_, fun state => ?_⟩
  · obtain ⟨hindex, hget⟩ := List.getElem?_eq_some_iff.mp ht
    have hsplit : s.delayed = s.delayed.take index ++ t :: s.delayed.drop (index + 1) := by
      rw [← hget, List.getElem_cons_drop, List.take_append_drop]
    have hfilter : s.current = s.delayed.filter isCurrent := rfl
    rw [hfilter, hsplit, List.filter_append, List.filter_cons, ← hsplit]
    by_cases hgen : s.generation = t.generation
    · simp [isCurrent, hgen]
    · simp [isCurrent, hgen, Ne.symm hgen]
  · have hfilter : ({ s with state, delayed := s.delayed.eraseIdx index } : Schedule).current =
        (s.delayed.eraseIdx index).filter isCurrent := rfl
    rw [hfilter, List.eraseIdx_eq_take_drop_succ, List.filter_append]

/-! ## Every step keeps the delays in time -/

/-- A delayed transition that comes to its end without having been overtaken is the only current one, and
ends the delay that the latest movement began. -/
theorem Timely.ending (hs : s.Timely latest) {index : Nat} {t : DelayedTransition}
    (ht : s.delayed[index]? = some t) (hgen : s.generation = t.generation) :
    (∀ state, ({ s with state, delayed := s.delayed.eraseIdx index } : Schedule).current = []) ∧
      ((s.state = .exitDelay ∧ s.mode.isSome = true ∧ t.next = .armed ∧
          ∃ time, latest = some (time, .arming) ∧ t.due = time + s.settings.exitPause) ∨
        (s.state = .entryDelay ∧ t.next = .tripped ∧
          ∃ time, latest = some (time, .tripping) ∧ t.due = time + s.settings.entryPause)) := by
  obtain ⟨before, after, hcurrent, hrest⟩ := exists_current_split ht
  rw [if_pos hgen] at hcurrent
  have halone (x : DelayedTransition) (hx : s.current = [x]) : (before = [] ∧ after = []) ∧ t = x := by
    rw [hx] at hcurrent
    have hlen := congrArg List.length hcurrent
    simp only [List.length_append, List.length_singleton] at hlen
    have hbefore : before = [] := List.length_eq_zero_iff.mp (by omega)
    have hafter : after = [] := List.length_eq_zero_iff.mp (by omega)
    subst hbefore hafter
    exact ⟨⟨rfl, rfl⟩, (List.singleton_inj.mp hcurrent).symm⟩
  have hsome : s.current ≠ [] := by
    rw [hcurrent]
    simp
  -- In a state that knows of no delay nothing is current, so it is one of the two delays that ends.
  have hstanding := hs.standing
  unfold Standing at hstanding
  split at hstanding
  next => exact absurd hstanding.1 hsome
  next hstate =>
    obtain ⟨hmode, time, hlatest, hx⟩ := hstanding
    obtain ⟨⟨rfl, rfl⟩, rfl⟩ := halone _ hx
    exact ⟨hrest, .inl ⟨hstate, hmode, rfl, time, hlatest, rfl⟩⟩
  next => exact absurd hstanding.1 hsome
  next hstate =>
    obtain ⟨time, hlatest, hx⟩ := hstanding
    obtain ⟨⟨rfl, rfl⟩, rfl⟩ := halone _ hx
    exact ⟨hrest, .inr ⟨hstate, rfl, time, hlatest, rfl⟩⟩
  next => exact absurd hstanding hsome

/-- Beginning a delay overtakes the others, and the new one is neither overdue nor from a generation to
come. -/
theorem Timely.begin_of_standing {state : PanelState} {mode : Option ArmingMode} (hs : s.Timely latest)
    (millis : UInt64) (next : PanelState) {latest' : Option (Nat × Movement)}
    (hstanding : ({ s with state, mode }.begin millis next).Standing latest') :
    ({ s with state, mode }.begin millis next).Timely latest' := by
  refine ⟨fun t ht => ?_, fun t ht => ?_, hstanding⟩
  · rcases List.mem_append.mp ht with hold | hnew
    · exact Nat.le_succ_of_le (hs.generation_le t hold)
    · rw [List.mem_singleton.mp hnew]
      exact Nat.le_refl _
  · rcases List.mem_append.mp ht with hold | hnew
    · exact hs.now_le t hold
    · rw [List.mem_singleton.mp hnew]
      exact Nat.le_add_right _ _

theorem Timely.step {t : Schedule} {movement : Option Movement} (hs : s.Timely latest)
    (h : Step s movement t) : t.Timely ((movement.map (s.now, ·)).or latest) := by
  cases h with
  | arm mode =>
    exact hs.begin_of_standing _ _ ⟨rfl, s.now, rfl, current_begin hs.generation_le _ _⟩
  | trip => exact hs.begin_of_standing _ _ ⟨s.now, rfl, current_begin hs.generation_le _ _⟩
  | disarm =>
    exact ⟨fun t ht => Nat.le_succ_of_le (hs.generation_le t ht), hs.now_le,
      filter_next_generation hs.generation_le, rfl⟩
  | still => exact hs
  | pass millis hdue => exact ⟨hs.generation_le, hdue, hs.standing⟩
  | expire index t ht hdue =>
    refine ⟨fun u hu => hs.generation_le u (List.mem_of_mem_eraseIdx hu),
      fun u hu => hs.now_le u (List.mem_of_mem_eraseIdx hu), ?_⟩
    change Standing _ latest
    by_cases hgen : s.generation = t.generation
    · obtain ⟨hrest, ⟨-, hmode, hnext, -⟩ | ⟨-, hnext, -⟩⟩ := hs.ending ht hgen
      · simp only [if_pos hgen, hnext]
        exact ⟨hrest _, hmode⟩
      · simp only [if_pos hgen, hnext]
        exact hrest _
    · -- The current transitions are as before, and so is the state.
      obtain ⟨before, after, hcurrent, hrest⟩ := exists_current_split ht
      rw [if_neg hgen, List.append_nil] at hcurrent
      simp only [if_neg hgen]
      have hstanding := hs.standing
      unfold Standing at hstanding ⊢
      rw [hcurrent] at hstanding
      simpa only [hrest] using hstanding

theorem Step.settings_eq {t : Schedule} {movement : Option Movement} (h : Step s movement t) :
    t.settings = s.settings := by
  cases h <;> rfl

/-- The state that a movement leads to. -/
def afterMovement : Movement → PanelState
  | .arming => .exitDelay
  | .tripping => .entryDelay
  | .disarming => .disarmed

theorem Step.state_eq {t : Schedule} {movement : Movement} (h : Step s (some movement) t) :
    t.state = afterMovement movement := by
  cases h <;> rfl

/-- A state is entered by a movement, or at the end of the delay that the latest movement began. -/
theorem Timely.entry {t : Schedule} {movement : Option Movement} (hs : s.Timely latest)
    (h : Step s movement t) (hstate : t.state ≠ s.state) :
    (∃ m, movement = some m ∧ t.state = afterMovement m) ∨
      (s.state = .exitDelay ∧ t.state = .armed ∧
        ∃ time, latest = some (time, .arming) ∧ t.now = time + s.settings.exitPause) ∨
      (s.state = .entryDelay ∧ t.state = .tripped ∧
        ∃ time, latest = some (time, .tripping) ∧ t.now = time + s.settings.entryPause) := by
  cases h with
  | arm mode => exact .inl ⟨.arming, rfl, rfl⟩
  | trip => exact .inl ⟨.tripping, rfl, rfl⟩
  | disarm => exact .inl ⟨.disarming, rfl, rfl⟩
  | still => exact absurd rfl hstate
  | pass millis hdue => exact absurd rfl hstate
  | expire index t ht hdue =>
    by_cases hgen : s.generation = t.generation
    · -- Time does not pass a delayed transition by, so it is carried out when it is due.
      have hnow : s.now = t.due :=
        Nat.le_antisymm (hs.now_le t (List.mem_of_getElem? ht)) hdue
      simp only [if_pos hgen, hnow]
      obtain ⟨-, ⟨hs, -, hnext, hlatest⟩ | ⟨hs, hnext, hlatest⟩⟩ := hs.ending ht hgen
      · exact .inr (.inl ⟨hs, hnext, hlatest⟩)
      · exact .inr (.inr ⟨hs, hnext, hlatest⟩)
    · exact absurd (if_neg hgen) hstate

end Schedule

namespace SimulatedPanel

variable {p q : SimulatedPanel} {action : PanelAction} {latest : Option (Nat × Movement)}

/-! ## Histories -/

/-- The movements of a history, each with the time at which it happened. -/
def movements : List PanelAction → SimulatedPanel → List (Nat × Movement)
  | [], _ => []
  | action :: actions, p =>
    ((p.movement? action).map (p.now, ·)).toList ++ ((p.perform? action).map (movements actions)).getD []

/-- Nothing changes the settings. -/
theorem settings_of_performAll? {actions : List PanelAction} (h : p.performAll? actions = some q) :
    q.settings = p.settings := by
  induction actions generalizing p with
  | nil =>
    cases h
    rfl
  | cons action actions ih =>
    obtain ⟨r, hr : p.perform? action = some r, hq⟩ := Option.bind_eq_some_iff.mp h
    exact (ih hq).trans (step_of_perform? hr).settings_eq

/-- The delays of a panel that is in time stay so, whatever happens to it. -/
theorem timely_of_performAll? {actions : List PanelAction} (hp : p.schedule.Timely latest)
    (h : p.performAll? actions = some q) :
    q.schedule.Timely ((movements actions p).getLast?.or latest) := by
  induction actions generalizing p latest with
  | nil =>
    cases h
    exact hp
  | cons action actions ih =>
    obtain ⟨r, hr : p.perform? action = some r, hq⟩ := Option.bind_eq_some_iff.mp h
    have hrest := ih (hp.step (step_of_perform? hr)) hq
    have hlatest : (movements (action :: actions) p).getLast?.or latest =
        (movements actions r).getLast?.or (((p.movement? action).map (p.now, ·)).or latest) := by
      rw [movements, hr, Option.map_some, Option.getD_some, List.getLast?_append, Option.or_assoc]
      cases p.movement? action <;> rfl
    rw [hlatest]
    exact hrest

theorem timely_new (settings : PanelSettings) (clock : Nat → Timestamp) :
    (new settings clock).schedule.Timely none :=
  ⟨fun _ ht => absurd ht List.not_mem_nil, fun _ ht => absurd ht List.not_mem_nil, rfl, rfl⟩

/-! ## The delays and the state -/

/-- The delayed transitions that have not been overtaken. -/
def current (p : SimulatedPanel) : List DelayedTransition :=
  p.delayed.filter fun t => t.generation = p.generation

/-- What the state of a panel says about its delays and its mode. -/
structure DelaysFit (p : SimulatedPanel) : Prop where
  /-- At most one delay has not been overtaken. -/
  length_current_le : p.current.length ≤ 1
  exitDelay_iff : p.state = .exitDelay ↔ ∃ t, p.current = [t] ∧ t.next = .armed
  entryDelay_iff : p.state = .entryDelay ↔ ∃ t, p.current = [t] ∧ t.next = .tripped
  /-- Elsewhere there is none. -/
  current_eq_nil : p.state = .disarmed ∨ p.state = .armed ∨ p.state = .tripped → p.current = []
  mode_isSome : p.state = .exitDelay ∨ p.state = .armed → p.mode.isSome = true
  mode_eq_none : p.state = .disarmed → p.mode = none

theorem delaysFit_of_timely (hp : p.schedule.Timely latest) : p.DelaysFit := by
  have hstanding := hp.standing
  have hcurrent : p.schedule.current = p.current := rfl
  unfold Schedule.Standing at hstanding
  rw [hcurrent] at hstanding
  split at hstanding
  next hstate =>
    have hstate : p.state = .disarmed := hstate
    constructor <;> simp [hstate, hstanding.1, show p.mode = none from hstanding.2]
  next hstate =>
    have hstate : p.state = .exitDelay := hstate
    obtain ⟨hmode, time, -, hx⟩ := hstanding
    constructor <;> simp [hstate, hx, show p.mode.isSome = true from hmode]
  next hstate =>
    have hstate : p.state = .armed := hstate
    constructor <;> simp [hstate, hstanding.1, show p.mode.isSome = true from hstanding.2]
  next hstate =>
    have hstate : p.state = .entryDelay := hstate
    obtain ⟨time, -, hx⟩ := hstanding
    constructor <;> simp [hstate, hx]
  next hstate =>
    have hstate : p.state = .tripped := hstate
    constructor <;> simp [hstate, hstanding]

/-- What has been overtaken only leaves the list when it ends. -/
theorem expire_of_generation_ne {index : Nat} {t : DelayedTransition} (ht : p.delayed[index]? = some t)
    (hgen : t.generation ≠ p.generation) :
    p.expire index = { p with delayed := p.delayed.eraseIdx index } := by
  simp only [expire, ht, if_neg (Ne.symm hgen)]

variable {settings : PanelSettings} {clock : Nat → Timestamp} {actions : List PanelAction}

/-- After every history of a new panel its delays are as its state says, and a delay that has been
overtaken does nothing when it ends. So the panel is armed only when the exit delay of the latest movement
is over, it is tripped only when the entry delay of the latest movement is over, and without a movement it
stays disarmed. -/
theorem delays_never_stale (h : (new settings clock).performAll? actions = some p) :
    p.DelaysFit ∧
      (∀ index t, p.delayed[index]? = some t → t.generation ≠ p.generation →
        p.expire index = { p with delayed := p.delayed.eraseIdx index }) ∧
      ∀ action q, p.perform? action = some q →
        (q.state = .armed → p.state ≠ .armed → p.state = .exitDelay ∧
          ∃ time, (movements actions (new settings clock)).getLast? = some (time, .arming) ∧
            q.now = time + settings.exitPause) ∧
        (q.state = .tripped → p.state ≠ .tripped → p.state = .entryDelay ∧
          ∃ time, (movements actions (new settings clock)).getLast? = some (time, .tripping) ∧
            q.now = time + settings.entryPause) ∧
        (p.state = .disarmed → p.movement? action = none → q.state = .disarmed) := by
  have htimely := timely_of_performAll? (timely_new settings clock) h
  rw [Option.or_none] at htimely
  refine ⟨delaysFit_of_timely htimely, fun index t ht hgen => expire_of_generation_ne ht hgen,
    fun action q hq => ?_⟩
  have hsettings : p.schedule.settings = settings := settings_of_performAll? h
  have hstep := step_of_perform? hq
  have hentry (hstate : q.state ≠ p.state) := htimely.entry hstep hstate
  rw [hsettings] at hentry
  refine ⟨fun harmed hnot => ?_, fun htripped hnot => ?_, fun hdisarmed hnone => ?_⟩
  · rcases hentry (by rw [harmed]; exact hnot.symm) with ⟨m, -, hm⟩ | ⟨hp, -, hlatest⟩ | ⟨-, hq, -⟩
    · cases m <;> cases harmed.symm.trans hm
    · exact ⟨hp, hlatest⟩
    · cases harmed.symm.trans hq
  · rcases hentry (by rw [htripped]; exact hnot.symm) with ⟨m, -, hm⟩ | ⟨-, hq, -⟩ | ⟨hp, -, hlatest⟩
    · cases m <;> cases htripped.symm.trans hm
    · cases htripped.symm.trans hq
    · exact ⟨hp, hlatest⟩
  · by_cases hsame : q.state = p.state
    · exact hsame.trans hdisarmed
    · rcases hentry hsame with ⟨m, hm, -⟩ | ⟨hp, -⟩ | ⟨hp, -⟩
      · cases hnone.symm.trans hm
      · cases hdisarmed.symm.trans hp
      · cases hdisarmed.symm.trans hp

/-- A panel that is armed anew before its exit delay is over: the first delay does nothing when it ends, and
the second one arms the panel ten seconds after it began. -/
theorem delays_never_stale_rearmed :
    let p₀ := new .default fun _ => ⟨⟨2024, 1, 1, by decide⟩, 0, 0, 0, by decide⟩
    let actions : List PanelAction :=
      [.arm .away, .pass 4000, .arm .home, .pass 6000, .expire 0, .pass 4000]
    ∃ p q, p₀.performAll? actions = some p ∧ p.DelaysFit ∧ p.perform? (.expire 0) = some q ∧
      q.now = 14000 ∧ q.state = .armed ∧
        ∃ time, (movements actions p₀).getLast? = some (time, .arming) ∧ q.now = time + 10000 := by
  intro p₀ actions
  have hrun : (p₀.performAll? actions).any (fun p =>
      p.state ≠ .armed ∧ (p.perform? (.expire 0)).any fun q => q.now = 14000 ∧ q.state = .armed) := by
    decide +kernel
  obtain ⟨p, hp, hpq⟩ := (Option.any_eq_true _ _).mp hrun
  obtain ⟨hnot, hpq⟩ := of_decide_eq_true hpq
  obtain ⟨q, hq, hend⟩ := (Option.any_eq_true _ _).mp hpq
  obtain ⟨hnow, harmed⟩ := of_decide_eq_true hend
  obtain ⟨hfit, -, hentry⟩ := delays_never_stale hp
  obtain ⟨-, htime⟩ := (hentry _ q hq).1 harmed hnot
  exact ⟨p, q, hp, hfit, hq, hnow, harmed, htime⟩

/-- A pause lasts thirty years at most, so an exit delay that is set ten seconds longer is over ten seconds
before its time. -/
theorem armed_before_exitMillis :
    let p₀ := new { PanelSettings.default with exitMillis := 946080010000 }
      fun _ => ⟨⟨2024, 1, 1, by decide⟩, 0, 0, 0, by decide⟩
    let actions : List PanelAction := [.arm .away, .pass 946080000000]
    ∃ p q, p₀.performAll? actions = some p ∧ (movements actions p₀).getLast? = some (0, .arming) ∧
      p.state = .exitDelay ∧ p.perform? (.expire 0) = some q ∧ q.state = .armed ∧
        q.now < p.settings.exitMillis.toNat := by
  intro p₀ actions
  have hrun : (p₀.performAll? actions).any (fun p => p.state = .exitDelay ∧
      (p.perform? (.expire 0)).any fun q => q.state = .armed ∧ q.now < p.settings.exitMillis.toNat) := by
    decide +kernel
  obtain ⟨p, hp, hpq⟩ := (Option.any_eq_true _ _).mp hrun
  obtain ⟨hexit, hpq⟩ := of_decide_eq_true hpq
  obtain ⟨q, hq, hend⟩ := (Option.any_eq_true _ _).mp hpq
  obtain ⟨harmed, hearly⟩ := of_decide_eq_true hend
  exact ⟨p, q, hp, by decide +kernel, hexit, hq, harmed, hearly⟩

end SimulatedPanel

end AlarmPanel
