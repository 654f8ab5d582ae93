import AlarmPanel.Proofs.Circuit.DialLog

/-!
# A caller that is alone

While a strand holds the connect lock it keeps it through all its dials and pauses (`Client.HoldsUntil`). A call to
connect that is alone with the link has nobody to wait for but the clock. So it makes one dial after the other for as
long as they are refused (`Client.Alone.refusals`), and when the first one that is not has
connected (`Client.Alone.connected`), it makes that known and is through.
-/

namespace AlarmPanel

namespace Client

/-! ## Holding the lock -/

/-- Whether a strand holds the connect lock all through a history. -/
def holdsThrough (strand : Strand) : List ClientAction → Client → Bool
  | [], c => c.connectLock.holder = some strand
  | action :: later, c =>
    decide (c.connectLock.holder = some strand) && (c.perform? action).any (holdsThrough strand later)

/-- The client comes to be another one while a strand holds the connect lock all the time. -/
def HoldsUntil (strand : Strand) (c d : Client) : Prop :=
  ∃ later, c.performAll? later = some d ∧ c.holdsThrough strand later = true

namespace HoldsUntil

variable {c d e : Client} {strand : Strand} {action : ClientAction}

theorem refl (hholds : c.connectLock.holder = some strand) : HoldsUntil strand c c :=
  ⟨[], rfl, decide_eq_true hholds⟩

theorem head (h : c.perform? action = some d) (hholds : c.connectLock.holder = some strand)
    (hd : HoldsUntil strand d e) : HoldsUntil strand c e := by
  obtain ⟨later, hlater, hall⟩ := hd
  refine ⟨action :: later, Option.bind_eq_some_iff.mpr ⟨d, h, hlater⟩, ?_⟩
  rw [holdsThrough, h, Option.any_some, hall, Bool.and_true]
  exact decide_eq_true hholds

theorem trans (hcd : HoldsUntil strand c d) (hde : HoldsUntil strand d e) : HoldsUntil strand c e := by
  obtain ⟨first, hfirst, hholds⟩ := hcd
  induction first generalizing c with
  | nil =>
    cases hfirst
    exact hde
  | cons action first ih =>
    obtain ⟨f, hf : c.perform? action = some f, hd⟩ := Option.bind_eq_some_iff.mp hfirst
    rw [holdsThrough, hf, Option.any_some, Bool.and_eq_true] at hholds
    exact head hf (of_decide_eq_true hholds.1) (ih hd hholds.2)

end HoldsUntil

/-! ## Nobody else -/

variable {c d : Client} {task wake : Nat} {place : ConnectPlace}

/-- A call to connect holds the lock and stands at a place, and nobody else has anything left to do. The link is down,
its dials take no time and none of them ends without an answer, and the client is not closed. -/
structure Alone (task : Nat) (place : ConnectPlace) (c : Client) : Prop where
  task_eq : c.tasks[task]? = some (.call .connect (.connecting place))
  others_over : ∀ other, other ≠ task → c.isOver other = true
  holds : c.connectLock.holder = some ⟨task, 0⟩
  down : c.link.up = false
  unclosed : c.closed = false
  unsignalled : c.shutdown = false
  prompt : c.link.dialsSuspend = false
  answered : c.link.unanswered = 0

theorem Alone.go?_eq (hc : Alone task place c) (turn : Turn) :
    c.go? ⟨task, 0⟩ turn = c.callStep? ⟨task, 0⟩ turn .connect (.connecting place) := by
  unfold go?
  rw [hc.task_eq]
  rfl

theorem Alone.eq_over {other : Nat} {state : Task} (hc : Alone task place c) (hother : other ≠ task)
    (hstate : c.tasks[other]? = some state) : ∃ role ending, state = .over role ending := by
  have hover := hc.others_over other hother
  rw [isOver, hstate] at hover
  cases state with
  | receive | refresh | call => cases hover
  | _ => exact ⟨_, _, rfl⟩

/-- The call comes to stand at another place. -/
theorem Alone.setTask {next : ConnectPlace} (hc : Alone task place c) (htasks : d.tasks = c.tasks)
    (hlock : d.connectLock = c.connectLock) (hclosed : d.closed = c.closed) (hshutdown : d.shutdown = c.shutdown)
    (hdown : d.link.up = false) (hprompt : d.link.dialsSuspend = false) (hanswered : d.link.unanswered = 0) :
    Alone task next (d.setTask task (.call .connect (.connecting next))) where
  task_eq := by
    have hlt := (List.getElem?_eq_some_iff.mp hc.task_eq).1
    exact List.getElem?_set_self (htasks ▸ hlt)
  others_over other hother := by
    have hsame : (d.setTask task (.call .connect (.connecting next))).tasks[other]? = c.tasks[other]? := by
      rw [← htasks]
      exact List.getElem?_set_ne hother.symm
    have hover := hc.others_over other hother
    unfold isOver at hover ⊢
    rwa [hsame]
  holds := hlock ▸ hc.holds
  down := hdown
  unclosed := hclosed.trans hc.unclosed
  unsignalled := hshutdown.trans hc.unsignalled
  prompt := hprompt
  answered := hanswered

/-- A dial that is refused: the call pauses. -/
theorem Alone.refused {n : Nat} (hc : Alone task .checking c) (hrefusals : c.link.refusals = n + 1) :
    ∃ d, c.perform? (.go ⟨task, 0⟩ .own) = some d ∧ Alone task (.pausing (c.wakeTime c.backoff.delay)) d ∧
      d.link.refusals = n ∧ d.now = c.now ∧
        d.effects = c.effects ++ [.dialing ⟨task, 0⟩, .dialed .refused] := by
  have hdial : c.link.dial = ({ c.link with refusals := n }, .refused) := by
    rw [Link.dial, if_pos (by omega), hrefusals]
    rfl
  let dialing := c.note (.dialing ⟨task, 0⟩)
  let refused : Client :=
    { { dialing with link := { c.link with refusals := n } }.note (.dialed .refused) with backoff := c.backoff.advance }
  have hstep : c.connectStep? ⟨task, 0⟩ .own .checking =
      some (refused, .place (.pausing (c.wakeTime c.backoff.delay))) := by
    have hdialing : dialing.link.dial = c.link.dial := rfl
    simp only [connectStep?, hc.down, hc.unclosed, hc.prompt, Bool.false_eq_true, if_false]
    show some dialing.endDial = _
    unfold endDial
    rw [hdialing, hdial]
    rfl
  refine ⟨refused.setTask task (.call .connect (.connecting (.pausing (c.wakeTime c.backoff.delay)))), ?_,
    hc.setTask rfl rfl rfl rfl hc.down hc.prompt hc.answered, rfl, rfl, ?_⟩
  · refine (hc.go?_eq .own).trans ?_
    unfold callStep?
    dsimp only
    rw [hstep]
    rfl
  · show refused.effects = _
    simp [refused, dialing, note, effects]

/-- Until the pause is over nobody can go on, so that time can pass. -/
theorem Alone.ready_eq_nil (hc : Alone task (.pausing wake) c) (hearly : c.now < wake) : c.ready = [] := by
  refine List.filter_eq_nil_iff.mpr fun other _ => ?_
  rw [Bool.not_eq_true, Option.isSome_eq_false_iff, Option.isNone_iff_eq_none]
  refine List.findSome?_eq_none_iff.mpr fun ⟨strand, turn⟩ hstep => ?_
  by_cases hother : other = task
  · subst hother
    have hmem : (strand, turn) = (⟨other, 0⟩, .signal) ∨ (strand, turn) = (⟨other, 0⟩, .own) := by
      simpa [stepsOf, hc.task_eq, Task.branches] using hstep
    rcases hmem with h | h <;> cases h
    · simp [hc.go?_eq, callStep?, connectStep?, hc.unsignalled]
    · simp [hc.go?_eq, callStep?, connectStep?, hearly]
  · unfold stepsOf at hstep
    cases hstate : c.tasks[other]? with
    | none => simp [hstate] at hstep
    | some state =>
      obtain ⟨role, ending, rfl⟩ := hc.eq_over hother hstate
      simp [hstate, Task.branches] at hstep

theorem Alone.deadlines_eq (hc : Alone task (.pausing wake) c) {deadline : Nat} (h : deadline ∈ c.deadlines) :
    deadline = wake := by
  obtain ⟨state, hmem, hdeadline⟩ := List.mem_flatMap.mp h
  obtain ⟨other, hstate⟩ := List.getElem?_of_mem hmem
  by_cases hother : other = task
  · subst hother
    cases hstate.symm.trans hc.task_eq
    exact List.mem_singleton.mp hdeadline
  · obtain ⟨role, ending, rfl⟩ := hc.eq_over hother hstate
    exact absurd hdeadline List.not_mem_nil

/-- When the pause is over, the call looks at the link again. -/
theorem Alone.paused (hc : Alone task (.pausing wake) c) (hearly : c.now ≤ wake) :
    ∃ d, HoldsUntil ⟨task, 0⟩ c d ∧ Alone task .checking d ∧ d.link = c.link ∧ d.effects = c.effects := by
  have hwakes {c : Client} (hc : Alone task (.pausing wake) c) (hwake : wake ≤ c.now) :
      ∃ d, HoldsUntil ⟨task, 0⟩ c d ∧ Alone task .checking d ∧ d.link = c.link ∧ d.effects = c.effects := by
    have hd : Alone task .checking (c.setTask task (.call .connect (.connecting .checking))) :=
      hc.setTask rfl rfl rfl rfl hc.down hc.prompt hc.answered
    have hgo : c.perform? (.go ⟨task, 0⟩ .own) = some (c.setTask task (.call .connect (.connecting .checking))) := by
      refine (hc.go?_eq .own).trans ?_
      simp [callStep?, connectStep?, hwake]
    exact ⟨_, .head hgo hc.holds (.refl hd.holds), hd, rfl, rfl⟩
  rcases Nat.eq_or_lt_of_le hearly with hnow | hlater
  · exact hwakes hc (Nat.le_of_eq hnow.symm)
  · have hpass : c.perform? (.pass (wake - c.now)) = some { c with now := wake } := by
      have hall : (c.deadlines.all fun deadline => c.now + (wake - c.now) ≤ deadline) = true :=
        List.all_eq_true.mpr fun deadline hdeadline => by
          rw [hc.deadlines_eq hdeadline]
          exact decide_eq_true (by omega)
      rw [perform?, hc.ready_eq_nil hlater, hall, Nat.add_sub_cancel' hearly]
      rfl
    have hd : Alone task (.pausing wake) { c with now := wake } :=
      ⟨hc.task_eq, hc.others_over, hc.holds, hc.down, hc.unclosed, hc.unsignalled, hc.prompt, hc.answered⟩
    obtain ⟨e, he, hrest⟩ := hwakes hd (Nat.le_refl _)
    exact ⟨e, .head hpass hc.holds he, hrest⟩

/-- However many dials are to be refused, the call makes them all. -/
theorem Alone.refusals (hc : Alone task .checking c) :
    ∃ d, HoldsUntil ⟨task, 0⟩ c d ∧ Alone task .checking d ∧ d.link.refusals = 0 ∧
      d.failuresInRow = c.failuresInRow + c.link.refusals := by
  induction hn : c.link.refusals generalizing c with
  | zero => exact ⟨c, .refl hc.holds, hc, hn, rfl⟩
  | succ n ih =>
    obtain ⟨d, hd, hpauses, hleft, hnow, hmore⟩ := hc.refused hn
    obtain ⟨e, he, hchecks, hlink, hsame⟩ := hpauses.paused (by rw [hnow]; exact Nat.le_add_right _ _)
    obtain ⟨f, hf, hends, hnone, hrow⟩ := ih hchecks (hlink ▸ hleft)
    have hrefused : e.failuresInRow = c.failuresInRow + 1 := failuresInRow_of_fails (hsame.trans hmore) rfl
    refine ⟨f, .head hd hc.holds (he.trans hf), hends, hnone, ?_⟩
    rw [hrow, hrefused]
    omega

/-- When no dial is refused any more, the next one connects, and the call has only to make that known. -/
theorem Alone.connected (hc : Alone task .checking c) (hrefusals : c.link.refusals = 0) :
    ∃ d, c.perform? (.go ⟨task, 0⟩ .own) = some d ∧
      d.tasks[task]? = some (.call .connect (.connecting .announcing)) ∧ d.connections = c.connections + 1 := by
  have hdial : c.link.dial = ({ c.link with up := true, number := c.link.number + 1 }, .connected) := by
    rw [Link.dial, if_neg (by omega), if_neg (by rw [hc.answered]; exact Nat.lt_irrefl 0)]
  obtain ⟨e, hstep, hlog, htasks⟩ : ∃ e, c.connectStep? ⟨task, 0⟩ .own .checking = some (e, .place .announcing) ∧
      e.effects = c.effects ++ [.dialing ⟨task, 0⟩, .dialed .connected] ∧ e.tasks = c.tasks := by
    have hdialing : (c.note (.dialing ⟨task, 0⟩)).link.dial = c.link.dial := rfl
    simp only [connectStep?, hc.down, hc.unclosed, hc.prompt, Bool.false_eq_true, if_false, endDial, hdialing, hdial]
    refine ⟨_, rfl, ?_, rfl⟩
    simp [note, effects]
  have hlt : task < e.tasks.length := htasks ▸ (List.getElem?_eq_some_iff.mp hc.task_eq).1
  refine ⟨e.setTask task (.call .connect (.connecting .announcing)), ?_, List.getElem?_set_self hlt,
    connections_append hlog⟩
  refine (hc.go?_eq .own).trans ?_
  unfold callStep?
  dsimp only
  rw [hstep]
  rfl

/-- And with that it is through. -/
theorem exists_answer_of_announcing (hplace : c.tasks[task]? = some (.call .connect (.connecting .announcing))) :
    ∃ d, c.perform? (.go ⟨task, 0⟩ .own) = some d ∧ d.answer? task = some .done ∧
      d.effects = c.effects ++ [.notified .connected] := by
  refine ⟨c.announceLink.answerCall task .connect .done, ?_, ?_, effects_note _ { c with lastHeard := some c.now }⟩
  · show c.go? ⟨task, 0⟩ .own = _
    unfold go?
    rw [hplace]
    rfl
  · have hlt : task < c.announceLink.tasks.length := (List.getElem?_eq_some_iff.mp hplace).1
    have hover : (c.announceLink.answerCall task .connect .done).tasks[task]? =
        some (.over (.call .connect) (.answered .done)) := List.getElem?_set_self hlt
    rw [answer?, hover]

end Client

end AlarmPanel
