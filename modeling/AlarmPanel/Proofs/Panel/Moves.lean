import AlarmPanel.Panel.Run
import AlarmPanel.Proofs.Frame.Fields

/-!
# What an operation does to a panel

A report only adds a frame, and a move only sets the state, ends the zone activity and adds frames. So
arming, tripping, disarming and turning a zone change few parts of the panel each, and the equations here
say which; what the added frames are is left to `Proofs.Panel.Frames`.

The delays depend on few of those parts, the panel's `Schedule`. `Schedule.Step` lists what an action can do
to it, and `SimulatedPanel.step_of_perform?` says that the list is complete.
-/

namespace AlarmPanel

namespace SimulatedPanel

variable {p q : SimulatedPanel} {action : PanelAction}

/-! ## Reports and moves -/

theorem send_eq (event : Event) (p : SimulatedPanel) :
    p.send event = { p with frames := (p.send event).frames } := by
  unfold send
  split <;> rfl

/-- Whatever events are sent one after the other, only frames are added. -/
theorem foldl_send_eq {α : Type} (event : SimulatedPanel → α → Event) (xs : List α) (p : SimulatedPanel) :
    xs.foldl (fun q x => q.send (event q x)) p
      = { p with frames := (xs.foldl (fun q x => q.send (event q x)) p).frames } := by
  induction xs generalizing p with
  | nil => rfl
  | cons x xs ih => rw [List.foldl_cons, ih, send_eq]

theorem reports_eq (types : List EventType) (p : SimulatedPanel) :
    types.foldl (fun q type => q.report type 0) p
      = { p with frames := (types.foldl (fun q type => q.report type 0) p).frames } :=
  foldl_send_eq _ types p

theorem moveTo_eq (next : PanelState) (p : SimulatedPanel) :
    p.moveTo next
      = { p with
          state := next
          active := p.active && decide (next = .disarmed)
          frames := (p.moveTo next).frames } := by
  have hquiet : ({ (if next = .disarmed then p else p.stopActivity) with state := next } : SimulatedPanel)
      = { p with state := next, active := p.active && decide (next = .disarmed) } := by
    split <;> simp [*, stopActivity]
  unfold moveTo
  dsimp only
  rw [hquiet, reports_eq]

theorem arm_eq (mode : ArmingMode) (p : SimulatedPanel) :
    p.arm mode
      = { p with
          mode := some mode
          state := .exitDelay
          active := false
          generation := p.generation + 1
          delayed := p.delayed ++ [⟨p.generation + 1, .armed,
            p.now + (Duration.ofMillis p.settings.exitMillis).pauseMillis⟩]
          frames := (p.arm mode).frames } := by
  unfold arm
  rw [moveTo_eq]
  simp [moveAfter]

theorem trip_eq (p : SimulatedPanel) :
    p.trip
      = { p with
          state := .entryDelay
          active := false
          generation := p.generation + 1
          delayed := p.delayed ++ [⟨p.generation + 1, .tripped,
            p.now + (Duration.ofMillis p.settings.entryMillis).pauseMillis⟩]
          frames := p.trip.frames } := by
  unfold trip
  rw [moveTo_eq]
  simp [moveAfter]

theorem disarm_eq (p : SimulatedPanel) :
    p.disarm
      = { p with
          mode := none
          state := .disarmed
          generation := p.generation + 1
          frames := p.disarm.frames } := by
  unfold disarm
  rw [moveTo_eq]
  simp

/-! ## Zones -/

/-- Turning a zone reports it, and this is all it does to the panel unless it trips it. -/
def turnZone (number : UInt8) (unsealed : Bool) (p : SimulatedPanel) : SimulatedPanel :=
  { p with zones := p.zones.set (number.toNat - 1) unsealed }.report
    (if unsealed then .unsealed else .sealed) number

theorem turnZone_eq (number : UInt8) (unsealed : Bool) (p : SimulatedPanel) :
    p.turnZone number unsealed
      = { p with
          zones := p.zones.set (number.toNat - 1) unsealed
          frames := (p.turnZone number unsealed).frames } :=
  send_eq _ _

/-- A zone that the panel has is turned, and an armed panel is tripped by it. -/
theorem setZone_eq_ok_iff {number : UInt8} {unsealed : Bool} :
    p.setZone number unsealed = .ok q ↔
      (1 ≤ number.toNat ∧ number.toNat ≤ p.zones.length) ∧
        q = if p.state = .armed then (p.turnZone number unsealed).trip
          else p.turnZone number unsealed := by
  have hstate : (p.turnZone number unsealed).state = p.state := by rw [turnZone_eq]
  unfold setZone
  split
  next hzone =>
    change Except.ok (if (p.turnZone number unsealed).state = .armed then _ else _) = _ ↔ _
    rw [hstate, Except.ok.injEq]
    exact ⟨fun h => ⟨hzone, h.symm⟩, fun h => h.2.symm⟩
  next hzone =>
    simp [hzone]

/-! ## Answers -/

theorem sendReplies_eq (p : SimulatedPanel) :
    p.sendReplies = { p with replies := [], frames := p.sendReplies.frames } :=
  foldl_send_eq _ p.replies { p with replies := [] }

theorem sendReplies_of_nil (h : p.replies = []) : p.sendReplies = p := by
  rw [sendReplies, h, List.foldl_nil, ← h]

/-- An answer that is formed is sent after those that wait to be sent. -/
theorem sendReplies_concat (update : StatusUpdate) (p : SimulatedPanel) :
    ({ p with replies := p.replies ++ [update] } : SimulatedPanel).sendReplies = p.sendReplies.answer update := by
  simp only [sendReplies, List.foldl_append, List.foldl_cons, List.foldl_nil]

/-- An answer that is formed while no other is to be sent is sent as it is. -/
theorem sendReplies_of_reply (h : p.replies = []) (update : StatusUpdate) :
    ({ p with replies := p.replies ++ [update] } : SimulatedPanel).sendReplies = p.answer update := by
  rw [sendReplies_concat, sendReplies_of_nil h]

end SimulatedPanel

/-- A text that does not end like the commands with a code is none of them. -/
theorem UserCommand.ne_append_of_getLast? {text : String} (h : text.toList.getLast? ≠ some 'E')
    (front : String) : text ≠ front ++ "E" := by
  rintro rfl
  simp at h

/-- Two equal digits and a sign ask for nothing but an output. -/
theorem UserCommand.exists_of_switch? {cs : List Char} {command : UserCommand}
    (h : switch? cs = some command) : ∃ number on, command = .setAuxOutput number on := by
  unfold switch? at h
  split at h
  next a b action =>
    cases hvalue : Text.decValue? a <;>
      simp only [hvalue, Option.bind_eq_bind, Option.bind_none, Option.bind_some] at h
    all_goals repeat' split at h
    all_goals simp at h
    all_goals exact ⟨_, _, h.symm⟩
  next => cases h

/-- The texts of the commands other than those for outputs, each with what it asks for. -/
def UserCommand.texts (code : String) : List (String × UserCommand) :=
  [("AE", .arm .away), ("HE", .arm .home), ("A" ++ code ++ "E", .arm .away), ("H" ++ code ++ "E", .arm .home),
    (code ++ "E", .disarm), ("S00", .askZones .lower), ("S20", .askZones .upper), ("S14", .askArming),
    ("S17", .askVersion), ("S18", .askAuxOutputs)]

/-- A text that is read is the first one that it is compared with, or it is read as the others are. -/
theorem UserCommand.eq_or_eq_of_ite {text first : String} {asked command : UserCommand} {others : Option UserCommand}
    (h : (if text = first then some asked else others) = some command) :
    (text, command) = (first, asked) ∨ others = some command := by
  split at h
  next htext => exact .inl (Prod.ext htext (Option.some.inj h).symm)
  next => exact .inr h

/-- What a text asks for is in the list, or it is to switch an output. -/
theorem UserCommand.parse?_cases {code text : String} {command : UserCommand}
    (h : parse? code text = some command) :
    (text, command) ∈ texts code ∨ ∃ number on, command = .setAuxOutput number on := by
  unfold parse? at h
  simp only [texts, List.mem_cons]
  iterate 10
    rw [or_assoc]
    refine (eq_or_eq_of_ite h).imp_right fun h => ?_
  exact .inr (exists_of_switch? h)

/-- The texts that ask for the status, each with what it asks for. -/
def UserCommand.statusTexts : List (String × UserCommand) :=
  [("S00", .askZones .lower), ("S20", .askZones .upper), ("S14", .askArming), ("S17", .askVersion),
    ("S18", .askAuxOutputs)]

/-- Only one text asks for each status, whatever the user's code. -/
theorem UserCommand.parse?_eq_iff_of_mem_statusTexts {code text asked : String} {command : UserCommand}
    (h : (asked, command) ∈ statusTexts) : parse? code text = some command ↔ text = asked := by
  have hlast : ∀ entry ∈ statusTexts, entry.1.toList.getLast? ≠ some 'E' := by decide
  have hwithCode := ne_append_of_getLast? (hlast _ h)
  simp only [statusTexts, List.mem_cons, Prod.mk.injEq, List.not_mem_nil, or_false] at h
  constructor
  · intro hparse
    have hcases := parse?_cases hparse
    rcases h with ⟨rfl, rfl⟩ | ⟨rfl, rfl⟩ | ⟨rfl, rfl⟩ | ⟨rfl, rfl⟩ | ⟨rfl, rfl⟩ <;>
      simpa [texts] using hcases
  · rintro rfl
    rcases h with ⟨rfl, rfl⟩ | ⟨rfl, rfl⟩ | ⟨rfl, rfl⟩ | ⟨rfl, rfl⟩ | ⟨rfl, rfl⟩ <;>
      simp [parse?, hwithCode]

theorem UserCommand.parse?_eq_askArming_iff {code text : String} :
    parse? code text = some .askArming ↔ text = "S14" := parse?_eq_iff_of_mem_statusTexts (by decide)

theorem UserCommand.parse?_eq_askAuxOutputs_iff {code text : String} :
    parse? code text = some .askAuxOutputs ↔ text = "S18" := parse?_eq_iff_of_mem_statusTexts (by decide)

theorem UserCommand.parse?_eq_askZones_iff {code text : String} {bank : ZoneBank} :
    parse? code text = some (.askZones bank) ↔ text = RequestId.command (.zone bank .inputUnsealed) := by
  cases bank with
  | lower => exact parse?_eq_iff_of_mem_statusTexts (by decide)
  | upper => exact parse?_eq_iff_of_mem_statusTexts (by decide)

/-! ## The schedule -/

/-- The parts of a panel that its delays depend on. -/
structure Schedule where
  settings : PanelSettings
  now : Nat
  state : PanelState
  mode : Option ArmingMode
  generation : Nat
  delayed : List DelayedTransition

/-- What begins a delay or ends all delays. -/
inductive Movement
  | arming | tripping | disarming
  deriving DecidableEq, Repr

/-- The movement that a command asks for, if it asks for one. -/
def UserCommand.movement? : UserCommand → Option Movement
  | .arm _ => some .arming
  | .disarm => some .disarming
  | _ => none

namespace Schedule

/-- The schedule with one more delay, which overtakes the others. -/
def begin (millis : UInt64) (next : PanelState) (s : Schedule) : Schedule :=
  { s with
    generation := s.generation + 1
    delayed := s.delayed ++
      [⟨s.generation + 1, next, s.now + (Duration.ofMillis millis).pauseMillis⟩] }

/-- What an action can do to a schedule, by the movement that the action is. -/
inductive Step (s : Schedule) : Option Movement → Schedule → Prop
  | arm (mode : ArmingMode) :
      Step s (some .arming)
        ({ s with state := .exitDelay, mode := some mode }.begin s.settings.exitMillis .armed)
  | trip :
      Step s (some .tripping)
        ({ s with state := .entryDelay }.begin s.settings.entryMillis .tripped)
  | disarm :
      Step s (some .disarming)
        { s with state := .disarmed, mode := none, generation := s.generation + 1 }
  | still : Step s none s
  | pass (millis : Nat) (hdue : ∀ t ∈ s.delayed, s.now + millis ≤ t.due) :
      Step s none { s with now := s.now + millis }
  | expire (index : Nat) (t : DelayedTransition) (ht : s.delayed[index]? = some t)
      (hdue : t.due ≤ s.now) :
      Step s none
        { s with
          state := if s.generation = t.generation then t.next else s.state
          delayed := s.delayed.eraseIdx index }

end Schedule

namespace SimulatedPanel

variable {p q : SimulatedPanel} {action : PanelAction}

def schedule (p : SimulatedPanel) : Schedule :=
  { settings := p.settings, now := p.now, state := p.state, mode := p.mode,
    generation := p.generation, delayed := p.delayed }

/-- The movement that an action is, if it is one. An armed panel may be tripped by a zone. -/
def movement? (action : PanelAction) (p : SimulatedPanel) : Option Movement :=
  match action with
  | .arm _ => some .arming
  | .disarm => some .disarming
  | .trip => some .tripping
  | .accept text => (UserCommand.parse? p.settings.userCode text).bind UserCommand.movement?
  | .setZone _ _ | .wake _ _ _ =>
    if p.state = .armed ∧ (p.perform? action).any (·.state = .entryDelay) then some .tripping
    else none
  | _ => none

theorem schedule_arm (mode : ArmingMode) (p : SimulatedPanel) :
    (p.arm mode).schedule =
      { p.schedule with state := .exitDelay, mode := some mode }.begin p.settings.exitMillis .armed := by
  rw [arm_eq]
  rfl

theorem schedule_trip (p : SimulatedPanel) :
    p.trip.schedule =
      { p.schedule with state := .entryDelay }.begin p.settings.entryMillis .tripped := by
  rw [trip_eq]
  rfl

theorem schedule_disarm (p : SimulatedPanel) :
    p.disarm.schedule =
      { p.schedule with state := .disarmed, mode := none, generation := p.generation + 1 } := by
  rw [disarm_eq]
  rfl

theorem schedule_turnZone (number : UInt8) (unsealed : Bool) (p : SimulatedPanel) :
    (p.turnZone number unsealed).schedule = p.schedule := by
  rw [turnZone_eq]
  rfl

theorem schedule_answer (update : StatusUpdate) (p : SimulatedPanel) :
    (p.answer update).schedule = p.schedule := by
  rw [answer, send_eq]
  rfl

theorem schedule_sendReply (index : Nat) (p : SimulatedPanel) :
    (p.sendReply index).schedule = p.schedule := by
  unfold sendReply
  split
  next => rfl
  next => exact schedule_answer _ _

theorem schedule_startActivity (p : SimulatedPanel) : p.startActivity.schedule = p.schedule := by
  unfold startActivity
  split <;> rfl

theorem schedule_setAuxOutput {number : UInt8} {on : Bool} (h : p.setAuxOutput number on = .ok q) :
    q.schedule = p.schedule := by
  unfold setAuxOutput at h
  split at h
  next =>
    cases h
    rfl
  next => cases h

/-- A zone that is turned leaves the schedule alone, or trips the panel. -/
theorem schedule_setZone {number : UInt8} {unsealed : Bool} (h : p.setZone number unsealed = .ok q) :
    q.schedule = if p.state = .armed then p.trip.schedule else p.schedule := by
  obtain ⟨-, rfl⟩ := setZone_eq_ok_iff.mp h
  split
  next =>
    rw [schedule_trip, schedule_trip, schedule_turnZone, turnZone_eq]
  next => exact schedule_turnZone ..

/-! ## Every action is a step of the schedule -/

theorem step_of_schedule_eq (h : q.schedule = p.schedule) : Schedule.Step p.schedule none q.schedule := by
  rw [h]
  exact .still

theorem step_of_turn (hq : q.schedule = if p.state = .armed then p.trip.schedule else p.schedule) :
    Schedule.Step p.schedule
      (if p.state = .armed ∧ q.state = .entryDelay then some .tripping else none) q.schedule := by
  by_cases harmed : p.state = .armed
  · rw [if_pos harmed, schedule_trip] at hq
    have hstate : q.state = .entryDelay := congrArg Schedule.state hq
    rw [if_pos ⟨harmed, hstate⟩, hq]
    exact .trip
  · rw [if_neg harmed] at hq
    rw [if_neg fun h => harmed h.1, hq]
    exact .still

theorem step_of_obey (command : UserCommand) (p : SimulatedPanel) :
    Schedule.Step p.schedule command.movement? (p.obey command).schedule := by
  cases command with
  | arm mode =>
    have harm : (p.obey (.arm mode)).schedule = _ := schedule_arm mode p
    rw [harm]
    exact .arm mode
  | disarm =>
    have hdisarm : (p.obey .disarm).schedule = _ := schedule_disarm p
    rw [hdisarm]
    exact .disarm
  | setAuxOutput number on =>
    refine step_of_schedule_eq ?_
    simp only [obey]
    split
    next q hq => exact schedule_setAuxOutput hq
    next => rfl
  | askZones bank => exact .still
  | askArming => exact .still
  | askVersion => exact .still
  | askAuxOutputs => exact .still

theorem step_of_accept (text : String) (p : SimulatedPanel) :
    Schedule.Step p.schedule (p.movement? (.accept text)) (p.accept text).schedule := by
  simp only [movement?, accept]
  split
  next command hcommand =>
    rw [hcommand, Option.bind_some]
    exact step_of_obey command p
  next hnone =>
    rw [hnone, Option.bind_none]
    exact .still

theorem step_of_expire {index : Nat} {t : DelayedTransition} (ht : p.delayed[index]? = some t)
    (hdue : t.due ≤ p.now) : Schedule.Step p.schedule none (p.expire index).schedule := by
  have hexpire : (p.expire index).schedule =
      { p.schedule with
        state := if p.generation = t.generation then t.next else p.state
        delayed := p.delayed.eraseIdx index } := by
    simp only [expire, ht]
    split
    next => rw [moveTo_eq]; rfl
    next => rfl
  rw [hexpire]
  exact .expire index t ht hdue

/-- A zone activity that wakes turns a zone, or leaves the schedule alone. -/
theorem schedule_wake (index drawnZone restMillis : Nat) (p : SimulatedPanel) :
    (p.wake index drawnZone restMillis).schedule = p.schedule ∨
      (p.wake index drawnZone restMillis).schedule =
        if p.state = .armed then p.trip.schedule else p.schedule := by
  unfold wake
  split
  next => exact .inl rfl
  next activity hactivity =>
    dsimp only
    split
    next =>
      split
      next q hq =>
        have hq' := schedule_setZone hq
        refine .inr (hq'.trans ?_)
        simp only [schedule_trip]
        rfl
      next => exact .inl rfl
    next => exact .inl rfl

theorem expire_of_perform? {index : Nat} (h : p.perform? (.expire index) = some q) :
    q = p.expire index := by
  simp only [perform?] at h
  split at h
  next =>
    obtain ⟨-, hq⟩ := Option.ite_none_right_eq_some.mp h
    exact (Option.some.inj hq).symm
  next => cases h

theorem wake_of_perform? {index drawnZone restMillis : Nat}
    (h : p.perform? (.wake index drawnZone restMillis) = some q) :
    q = p.wake index drawnZone restMillis := by
  simp only [perform?] at h
  split at h
  next =>
    obtain ⟨-, hq⟩ := Option.ite_none_right_eq_some.mp h
    exact (Option.some.inj hq).symm
  next => cases h

/-- Whatever happens to a panel, its schedule makes a step, and the movement of the step is the action's. -/
theorem step_of_perform? (h : p.perform? action = some q) :
    Schedule.Step p.schedule (p.movement? action) q.schedule := by
  cases action with
  | arm mode =>
    cases h
    rw [schedule_arm]
    exact .arm mode
  | disarm =>
    cases h
    rw [schedule_disarm]
    exact .disarm
  | trip =>
    cases h
    rw [schedule_trip]
    exact .trip
  | setZone number unsealed =>
    have hok : p.setZone number unsealed = .ok q := toOption_eq_some_iff.mp h
    simp only [movement?, h, Option.any_some, decide_eq_true_eq]
    exact step_of_turn (schedule_setZone hok)
  | setAuxOutput number on =>
    have hok : p.setAuxOutput number on = .ok q := toOption_eq_some_iff.mp h
    exact step_of_schedule_eq (schedule_setAuxOutput hok)
  | accept text =>
    cases h
    exact step_of_accept text p
  | sendReply index =>
    obtain ⟨-, hq⟩ := Option.ite_none_right_eq_some.mp h
    cases hq
    exact step_of_schedule_eq (schedule_sendReply index p)
  | startActivity =>
    cases h
    exact step_of_schedule_eq (schedule_startActivity p)
  | stopActivity =>
    cases h
    exact .still
  | expire index =>
    simp only [perform?] at h
    split at h
    next t ht =>
      obtain ⟨hdue, hq⟩ := Option.ite_none_right_eq_some.mp h
      cases hq
      exact step_of_expire ht hdue
    next => cases h
  | wake index drawnZone restMillis =>
    have hq := wake_of_perform? h
    simp only [movement?, h, Option.any_some, decide_eq_true_eq]
    rcases schedule_wake index drawnZone restMillis p with hstill | hturn
    · have hstate : q.state = p.state := congrArg Schedule.state ((congrArg _ hq).trans hstill)
      have hnot : ¬(p.state = .armed ∧ q.state = .entryDelay) := by
        rintro ⟨harmed, hentry⟩
        rw [hstate, harmed] at hentry
        cases hentry
      rw [if_neg hnot]
      exact step_of_schedule_eq ((congrArg _ hq).trans hstill)
    · exact step_of_turn ((congrArg _ hq).trans hturn)
  | pass millis =>
    obtain ⟨hdue, hq⟩ := Option.ite_none_right_eq_some.mp h
    cases hq
    refine .pass millis fun t ht => ?_
    have hmem : t.due ∈ p.dueTimes := List.mem_append_left _ (List.mem_map_of_mem ht)
    exact of_decide_eq_true (List.all_eq_true.mp hdue _ hmem)

end SimulatedPanel

end AlarmPanel
