import AlarmPanel.Proofs.Circuit.Staleness

/-!
# Limits of time

The settings of a client are numbers of any size, and the times that it forms of them have to be durations. A delay
between dials always is one, however the settings are chosen. The time that the panel may be silent may not be, and
the one who then looks whether the link is silent dies (`Client.dies_of_isStale?`). This is the only way to die
(`Client.exists_of_died`), so that nobody ever does just if that time is a duration (`Client.nobody_dies_iff`).
-/

namespace AlarmPanel

/-- Whether the task has died. -/
def Task.hasDied : Task → Bool
  | .over _ ending => ending = .died
  | _ => false

theorem Task.hasDied_of_isIdle {task : Task} (h : task.isIdle = true) : task.hasDied = false := by
  rcases eq_of_isIdle h with (rfl | rfl | ⟨asked, rfl⟩) | ⟨role, rfl⟩ <;> rfl

namespace Client

variable {c d : Client} {strand : Strand} {task : Nat} {action : ClientAction} {more : List Effect} {was now : Task}

/-- Whether there is such a task and it has died. -/
def diedAt (task : Nat) (c : Client) : Bool := (c.tasks[task]?).any Task.hasDied

theorem diedAt_of_task (h : c.tasks[task]? = some was) : c.diedAt task = was.hasDied := by
  rw [diedAt, h, Option.any_some]

/-- Whoever sees to the link has not died. -/
theorem diedAt_of_connectAt {place : ConnectPlace} (h : c.connectAt strand = some place) :
    c.diedAt strand.task = false := by
  obtain ⟨was, hwas, hat⟩ := Option.bind_eq_some_iff.mp h
  rw [diedAt_of_task hwas]
  unfold Task.hasDied
  split
  next => cases hat
  next => rfl

/-! ## Who dies -/

theorem ConnectMove.eq_of_dies {here : ConnectPlace} (hmove : ConnectMove strand c here more .dies) :
    here = .queued ∧ c.isStale? = none := by
  cases hmove with
  | die hstale => exact ⟨rfl, hstale⟩

theorem SendMove.eq_of_dies {line : String} {here : SendPlace} (hmove : SendMove strand line c here more .dies) :
    here.connectPlace? = some .queued ∧ c.isStale? = none := by
  cases hmove with
  | die hmove =>
    obtain ⟨rfl, hstale⟩ := hmove.eq_of_dies
    exact ⟨rfl, hstale⟩

theorem UpdateMove.eq_of_dies {branches : Branches} (hmove : UpdateMove strand c branches more .dies) :
    branches.connects strand.branch = some .queued ∧ c.isStale? = none := by
  cases hmove with
  | die hbranch hmove =>
    rw [Branches.connects_of_getElem? hbranch]
    exact hmove.eq_of_dies

/-- A task dies by a strand that looks whether the link is silent, and finds no limit to the silence. -/
theorem Move.eq_of_died (hmove : Move strand c d was more now) (hdied : now.hasDied = true)
    (hbranch : strand.branch ∈ was.branches) : was.connectAt strand.branch = some .queued ∧ c.isStale? = none := by
  have hsole {place : Option ConnectPlace} (hbranch : strand.branch ∈ [0]) (hplace : place = some .queued) :
      soleBranch place strand.branch = some .queued := by
    rw [List.mem_singleton.mp hbranch, hplace]
    rfl
  cases hmove with
  | receive hmove =>
    cases hmove with
    | die hmove =>
      obtain ⟨rfl, hstale⟩ := hmove.eq_of_dies
      exact ⟨hsole hbranch rfl, hstale⟩
    | _ => cases hdied
  | refresh hmove =>
    cases hmove with
    | die hmove => exact hmove.eq_of_dies
    | _ => cases hdied
  | call hmove =>
    cases hmove with
    | begin hmove => cases hmove <;> cases hdied
    | connectingDies hmove =>
      obtain ⟨rfl, hstale⟩ := hmove.eq_of_dies
      exact ⟨hsole hbranch rfl, hstale⟩
    | sendingDies hmove | requestDies hmove => exact hmove.eq_of_dies.imp (hsole hbranch) id
    | updateDies hmove => exact hmove.eq_of_dies
    | _ => cases hdied

/-- Nobody dies in another way. -/
theorem exists_of_died (h : c.perform? action = some d) (hbefore : c.diedAt task = false)
    (hdied : d.diedAt task = true) :
    ∃ branch, action = .go ⟨task, branch⟩ .own ∧ c.connectLock.holder = some ⟨task, branch⟩ ∧
      c.connectAt ⟨task, branch⟩ = some .queued ∧ c.isStale? = none := by
  obtain ⟨now, hnow, hover⟩ := (Option.any_eq_true _ _).mp hdied
  rcases task_perform?_cases h hnow with hsame | ⟨hidle, -⟩ | ⟨strand, turn, was, more, rfl, rfl, hwas, hmove⟩
  · rw [diedAt_of_task hsame, hover] at hbefore
    cases hbefore
  · cases (Task.hasDied_of_isIdle hidle).symm.trans hover
  · obtain ⟨state, hstate, hbranch⟩ := mem_branches_of_go? h
    obtain rfl := Option.some.inj (hwas.symm.trans hstate)
    obtain ⟨hqueued, hstale⟩ := hmove.eq_of_died hover hbranch
    have hplace : c.connectAt strand = some .queued := (connectAt_of_task hwas).trans hqueued
    obtain ⟨rfl, hholds⟩ := holder_of_queued hplace h
    exact ⟨strand.branch, rfl, hholds, hplace, hstale⟩

/-- Whoever looks whether the link is silent dies if there is no limit to the silence. -/
theorem dies_of_isStale? (hholds : c.connectLock.holder = some strand) (hqueued : c.connectAt strand = some .queued)
    (hstale : c.isStale? = none) : ∃ d, c.perform? (.go strand .own) = some d ∧ d.diedAt strand.task = true := by
  obtain ⟨d, hd⟩ := Option.isSome_iff_exists.mp (isSome_go?_of_holder hqueued hholds (.inl rfl))
  obtain ⟨after, hstep, hgoes⟩ := exists_goesOn_of_go? hqueued nofun hd
  rw [connectStep?, if_pos hholds, hstale] at hstep
  cases hstep
  obtain ⟨role, hnow⟩ := hgoes.died rfl
  exact ⟨d, hd, diedAt_of_task hnow⟩

/-! ## Histories -/

/-- Two callers, of which the second comes when the panel has been heard of. -/
theorem exists_queued_after_dial (settings : ClientSettings) :
    ∃ history c, (new settings .none (.new false false false)).performAll? history = some c ∧
      c.settings = settings ∧ c.connectLock.holder = some ⟨1, 0⟩ ∧ c.connectAt ⟨1, 0⟩ = some .queued ∧
        c.lastHeard = some 0 :=
  ⟨.call .connect :: .replicate 5 (.go ⟨0, 0⟩ .own) ++ .call .connect :: .replicate 2 (.go ⟨1, 0⟩ .own), _,
    rfl, rfl, rfl, rfl, rfl⟩

/-- Whatever the settings are, every delay between dials is a duration and no longer than the longest one. A task
dies in the one way that a strand of it gets the connect lock when the panel has been heard of, and the time that the
panel may be silent is no duration. So nobody dies in any history of a client just if that time is a duration. -/
theorem nobody_dies_iff (settings : ClientSettings) :
    (∀ handlers link history c, (new settings handlers link).performAll? history = some c →
      c.backoff.delay.nanos ≤ (Duration.ofMillis settings.backoffMaxMillis).nanos ∧
      ∀ action d task, c.perform? action = some d →
        (c.diedAt task = false ∧ d.diedAt task = true ↔
          ∃ branch, action = .go ⟨task, branch⟩ .own ∧ c.connectLock.holder = some ⟨task, branch⟩ ∧
            c.connectAt ⟨task, branch⟩ = some .queued ∧ c.lastHeard ≠ none ∧
              UInt64.size ≤ settings.silenceSeconds)) ∧
    ((∀ handlers link history c task, (new settings handlers link).performAll? history = some c →
        c.diedAt task = false) ↔ settings.silenceSeconds < UInt64.size) := by
  have hlimit {c : Client} {handlers : Handlers} {link : Link} {history : List ClientAction}
      (h : (new settings handlers link).performAll? history = some c) :
      c.isStale? = none ↔ c.lastHeard ≠ none ∧ UInt64.size ≤ settings.silenceSeconds := by
    have hsettings : c.settings = settings := settings_of_performAll? h
    rw [isStale?_eq_none_iff, hsettings]
  refine ⟨fun handlers link history c h => ⟨?_, fun action d task hd => ⟨?_, ?_⟩⟩, fun hnobody => ?_, ?_⟩
  · rw [backoff_of_performAll? h]
    exact Backoff.delay_failed_le _ _ _ _
  · rintro ⟨hbefore, hdied⟩
    obtain ⟨branch, haction, hholds, hqueued, hstale⟩ := exists_of_died hd hbefore hdied
    exact ⟨branch, haction, hholds, hqueued, (hlimit h).mp hstale⟩
  · rintro ⟨branch, rfl, hholds, hqueued, hstale⟩
    obtain ⟨d', hd', hdied⟩ := dies_of_isStale? hholds hqueued ((hlimit h).mpr hstale)
    obtain rfl := Option.some.inj (hd.symm.trans hd')
    exact ⟨diedAt_of_connectAt hqueued, hdied⟩
  · refine Nat.lt_of_not_le fun hlong => ?_
    obtain ⟨history, c, hc, -, hholds, hqueued, hheard⟩ := exists_queued_after_dial settings
    have hstale : c.isStale? = none := (hlimit hc).mpr ⟨by rw [hheard]; exact nofun, hlong⟩
    obtain ⟨d, hd, hdied⟩ := dies_of_isStale? hholds hqueued hstale
    have hd' : c.performAll? [.go ⟨1, 0⟩ .own] = some d := by simp [performAll?, hd]
    cases (hnobody _ _ _ d 1 (performAll?_trans hc hd')).symm.trans hdied
  · intro hfits handlers link history c task h
    refine performAll?_induction (P := fun c => c.settings = settings ∧ c.diedAt task = false) ?_ h ⟨rfl, rfl⟩ |>.2
    rintro action c d ⟨hsettings, hlives⟩ hd
    refine ⟨(congrArg Prod.fst (habits_perform? hd)).trans hsettings, Bool.eq_false_iff.mpr fun hdied => ?_⟩
    obtain ⟨branch, -, -, -, hstale⟩ := exists_of_died hd hlives hdied
    exact Nat.not_lt.mpr (isStale?_eq_none_iff.mp hstale).2 (hsettings ▸ hfits)

/-- The longest update interval and a second of grace: whoever needs the link once it has been up dies, and gets no
answer. -/
theorem dies_of_longest_interval :
    let settings := { ClientSettings.default with updateSeconds := 18446744073709551615, graceSeconds := 1 }
    let start := new settings ⟨none, none, none, none⟩ (.new false false false)
    let history : List ClientAction :=
      .call .connect :: .replicate 5 (.go ⟨0, 0⟩ .own) ++ .call .connect :: .replicate 3 (.go ⟨1, 0⟩ .own)
    ∃ c, start.performAll? history = some c ∧ c.answer? 0 = some .done ∧ c.link.up = true ∧
      c.diedAt 1 = true ∧ c.answer? 1 = none := by
  intro settings start history
  have hrun : (start.performAll? history).any fun c =>
      c.answer? 0 = some .done ∧ c.link.up = true ∧ c.diedAt 1 = true ∧ c.answer? 1 = none := by
    decide +kernel
  obtain ⟨c, hc, hends⟩ := (Option.any_eq_true _ _).mp hrun
  exact ⟨c, hc, of_decide_eq_true hends⟩

end Client

end AlarmPanel
