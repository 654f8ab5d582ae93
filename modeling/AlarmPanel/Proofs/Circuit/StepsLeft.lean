import Mathlib.Algebra.GroupWithZero.Nat
import AlarmPanel.Proofs.Circuit.HungUp

/-!
# How many steps are left

In a client that has hung up nobody goes round again: every step brings its task nearer to its end. A bound on
the steps that a task has left is read off its place (`Task.stepsLeft`), and the tasks together make no more
steps than that, beside those of the calls that are made in the meantime (`Client.HungUp.count_steps`).
-/

namespace AlarmPanel

/-- Whether a task makes a step. -/
def ClientAction.isStep : ClientAction → Bool
  | .go _ _ => true
  | _ => false

def ClientAction.isCall : ClientAction → Bool
  | .call _ => true
  | _ => false

/-! ## Places -/

def ConnectPlace.stepsLeft : ConnectPlace → Nat
  | .asking => 3
  | .queued => 2
  | .checking => 1
  | .dialing => 3
  | .announcing => 4
  | .pausing _ => 2

def SendPlace.stepsLeft : SendPlace → Nat
  | .connecting place => place.stepsLeft
  | .asking => 3
  | .queued => 2
  | .writing => 1

def Branches.stepsLeft (branches : Branches) : Nat :=
  (branches.map fun place => place.elim 0 SendPlace.stepsLeft).sum

/-- How many steps a task makes at most, once the client has hung up. -/
def Task.stepsLeft : Task → Nat
  | .receive .fresh => 1
  | .receive (.connecting place) => place.stepsLeft
  | .receive (.reading _) => 1
  | .refresh .fresh => 2
  | .refresh (.resting _) => 1
  | .refresh (.updating branches) => 1 + branches.stepsLeft
  | .call _ .fresh => 10
  | .call _ (.connecting place) => place.stepsLeft
  | .call _ (.sending _ place) => place.stepsLeft
  | .call _ (.requesting _ _ _ _ place) => 1 + place.stepsLeft
  | .call _ (.awaiting _ _ _) => 1
  | .call _ (.updating branches) => branches.stepsLeft
  | .call _ (.launched _) => 4
  | .call _ .hangingUp => 4
  | .call _ .collecting => 3
  | .call _ (.joining _) => 1
  | .call _ (.stoppingRefresh _ _) => 2
  | .call _ (.stoppingReceive _ _) => 1
  | .over _ _ => 0

/-- How many steps the tasks have left that the task has just launched. -/
def Task.launches : Task → Nat
  | .call _ (.launched _) => 3
  | _ => 0

theorem sum_map_set {α : Type} (weight : α → Nat) {list : List α} {place : Nat} {was : α}
    (h : list[place]? = some was) (now : α) :
    ((list.set place now).map weight).sum + weight was = (list.map weight).sum + weight now := by
  induction list generalizing place with
  | nil => cases h
  | cons first rest ih =>
    cases place with
    | zero =>
      obtain rfl := Option.some.inj h
      simp only [List.set_cons_zero, List.map_cons, List.sum_cons]
      omega
    | succ place =>
      have hrest := ih h
      simp only [List.set_cons_succ, List.map_cons, List.sum_cons]
      omega

theorem ConnectPlace.stepsLeft_pos (place : ConnectPlace) : 0 < place.stepsLeft := by
  cases place <;> exact Nat.succ_pos _

theorem SendPlace.stepsLeft_pos (place : SendPlace) : 0 < place.stepsLeft := by
  cases place with
  | connecting place => exact place.stepsLeft_pos
  | asking | queued | writing => exact Nat.succ_pos _

theorem Branches.stepsLeft_set {branches : Branches} {branch : Nat} {was : SendPlace}
    (h : branches[branch]? = some (some was)) (now : Option SendPlace) :
    Branches.stepsLeft (branches.set branch now) + was.stepsLeft =
      branches.stepsLeft + now.elim 0 SendPlace.stepsLeft :=
  sum_map_set _ h now

theorem Branches.stepsLeft_pos {branches : Branches} {branch : Nat} {was : SendPlace}
    (h : branches[branch]? = some (some was)) : 0 < branches.stepsLeft := by
  have hset := stepsLeft_set h none
  have hpos := was.stepsLeft_pos
  simp only [Option.elim_none] at hset
  omega

namespace Client

theorem stepsLeft_freshBranches : freshBranches.stepsLeft = 9 := by decide

variable {c d e : Client} {strand : Strand} {task : Nat} {turn : Turn} {was now : Task}
  {more : List Effect} {action : ClientAction}

/-- How many steps the tasks of the client make at most, once it has hung up. -/
def stepsLeft (c : Client) : Nat := (c.tasks.map Task.stepsLeft).sum

/-! ## Moves -/

namespace HungUp

variable {line : String}

theorem steps_of_connectMove (hc : HungUp c) {here next : ConnectPlace} (hhere : here ≠ .dialing)
    (hmove : ConnectMove strand c here more (.place next)) : next.stepsLeft < here.stepsLeft := by
  cases hmove with
  | ask | enter | hangUp | wake => simp [ConnectPlace.stepsLeft]
  | dial hopen => cases hc.closed.symm.trans hopen
  | fail hdials | connect hdials => exact absurd hdials (hc.not_dials hhere)

theorem steps_of_sendMove (hc : HungUp c) {here next : SendPlace} (hhere : here.connectPlace? ≠ some .dialing)
    (hmove : SendMove strand line c here more (.place next)) : next.stepsLeft < here.stepsLeft := by
  have hplace {place : ConnectPlace} (hhere : (SendPlace.connecting place).connectPlace? ≠ some .dialing) :
      place ≠ .dialing := fun hdialing => hhere (congrArg some hdialing)
  cases hmove with
  | connecting hmove => exact hc.steps_of_connectMove (hplace hhere) hmove
  | connected hmove =>
    rcases hc.result_of_connectMove (hplace hhere) hmove with hclosed | rfl
    · cases hclosed
    · decide
  | ask | begin => decide

theorem steps_of_updateMove (hc : HungUp c) {branches rest : Branches}
    (hwas : branches.connects strand.branch ≠ some .dialing)
    (hmove : UpdateMove strand c branches more (.place rest)) : rest.stepsLeft < branches.stepsLeft := by
  cases hmove with
  | @goOn _ next _ hbranch hmove =>
    rw [Branches.connects_of_getElem? hbranch] at hwas
    have hset := Branches.stepsLeft_set hbranch (some next)
    have hless := hc.steps_of_sendMove hwas hmove
    simp only [Option.elim_some] at hset
    omega
  | @done here _ hbranch =>
    have hset := Branches.stepsLeft_set hbranch none
    have hpos := here.stepsLeft_pos
    simp only [Option.elim_none] at hset
    omega

end HungUp

theorem UpdateMove.stepsLeft_pos {branches : Branches} {next : Next Branches (Except Error Unit)}
    (hmove : UpdateMove strand c branches more next) : 0 < branches.stepsLeft := by
  cases hmove with
  | goOn hbranch | done hbranch | last hbranch | fail hbranch | die hbranch =>
    exact Branches.stepsLeft_pos hbranch

/-- A step brings its task nearer to its end, whatever it launches. -/
theorem HungUp.steps_of_move (hc : HungUp c) (hwas : c.tasks[strand.task]? = some was)
    (hmove : Move strand c d was more now) : now.stepsLeft + now.launches < was.stepsLeft := by
  have hdialing := hc.not_dialing hwas
  have hfresh := stepsLeft_freshBranches
  cases hmove with
  | receive hmove =>
    cases hmove with
    | begin hopen | miss _ hopen | lose hopen => cases hc.closed.symm.trans hopen
    | read hup => cases hc.down.symm.trans hup
    | connecting hmove =>
      exact hc.steps_of_connectMove (ne_of_sole_place (hdialing 0)) hmove
    | connected _ hmove =>
      rcases hc.result_of_connectMove (ne_of_sole_place (hdialing 0)) hmove with hclosed | rfl
      · cases hclosed
      · exact (by decide : (1 : Nat) + 0 < 4)
    | part => exact Nat.succ_pos _
    | @refused place | @die place => exact place.stepsLeft_pos
    | stop | leave => exact Nat.succ_pos 0
  | refresh hmove =>
    cases hmove with
    | begin | stop => exact Nat.lt_succ_self _
    | update hopen => cases hc.closed.symm.trans hopen
    | cutOff | die => exact Nat.lt_of_lt_of_le Nat.zero_lt_one (Nat.le_add_right 1 _)
    | updating hmove => exact Nat.add_lt_add_left (hc.steps_of_updateMove (hdialing _) hmove) 1
    | rest _ hmove => exact Nat.add_lt_add_left hmove.stepsLeft_pos 1
  | call hmove =>
    cases hmove with
    | begin hmove =>
      cases hmove with
      | update =>
        show freshBranches.stepsLeft + 0 < 10
        rw [hfresh]
        decide
      | _ => simp [Task.stepsLeft, Task.launches, SendPlace.stepsLeft, ConnectPlace.stepsLeft]
    | connecting hmove =>
      exact hc.steps_of_connectMove (ne_of_sole_place (hdialing 0)) hmove
    | @connected _ place | @connectingDies _ place => exact place.stepsLeft_pos
    | sending hmove => exact hc.steps_of_sendMove (ne_of_soleBranch (hdialing 0)) hmove
    | @sent _ _ place | @sendingDies _ _ place => exact place.stepsLeft_pos
    | requesting hmove => exact Nat.add_lt_add_left (hc.steps_of_sendMove (ne_of_soleBranch (hdialing 0)) hmove) 1
    | @requested _ _ _ _ _ place => exact Nat.add_lt_add_left place.stepsLeft_pos 1
    | requestFails | requestDies => exact Nat.lt_of_lt_of_le Nat.zero_lt_one (Nat.le_add_right 1 _)
    | updating hmove => exact hc.steps_of_updateMove (hdialing _) hmove
    | updated hmove | updateDies hmove => exact hmove.stepsLeft_pos
    | _ => simp [Task.stepsLeft, Task.launches]

/-! ## Steps of all tasks -/

/-- To end a task leaves no more steps than before. -/
theorem stepsLeft_over_le (tasks : List Task) (task : Nat) (role : Role) (ending : Ending) :
    ((tasks.set task (.over role ending)).map Task.stepsLeft).sum ≤ (tasks.map Task.stepsLeft).sum := by
  cases hwas : tasks[task]? with
  | none => rw [List.set_eq_of_length_le (List.getElem?_eq_none_iff.mp hwas)]
  | some was =>
    have hset := sum_map_set Task.stepsLeft hwas (.over role ending)
    have hover : (Task.over role ending).stepsLeft = 0 := rfl
    omega

/-- What a step does beside putting its task at its place adds no steps but those of the tasks that it
launches. -/
theorem Deed.stepsLeft_le (hdeed : Deed c was now e) (hwas : c.tasks[task]? = some was) :
    ((e.tasks.set task now).map Task.stepsLeft).sum + was.stepsLeft ≤
      c.stepsLeft + now.stepsLeft + now.launches := by
  have hset := sum_map_set Task.stepsLeft hwas now
  have hsame (htasks : e.tasks = c.tasks) : ((e.tasks.set task now).map Task.stepsLeft).sum + was.stepsLeft ≤
      c.stepsLeft + now.stepsLeft + now.launches := by
    rw [htasks, hset]
    exact Nat.le_add_right _ _
  cases hdeed with
  | nothing | keep | take => exact hsame rfl
  | takeIn place bytes => exact hsame (tasks_receiveLine bytes c)
  | register => exact hsame (tasks_shareSlot ..)
  | launch call =>
    have hlt := (List.getElem?_eq_some_iff.mp hwas).1
    show (((c.tasks ++ [Task.receive .fresh] ++ [Task.refresh .fresh]).set task _).map Task.stepsLeft).sum + _ ≤ _
    rw [List.append_assoc, List.set_append_left _ _ hlt, List.map_append, List.sum_append]
    simp only [List.cons_append, List.nil_append, List.map_cons, List.map_nil, List.sum_cons, List.sum_nil,
      Task.stepsLeft, Task.launches, stepsLeft] at hset ⊢
    omega
  | abort other =>
    rcases c.abort_eq other with heq | ⟨role, -, heq⟩
    · exact hsame (by rw [heq])
    · have htasks : (c.abort other).tasks = c.tasks.set other (.over role .aborted) := by rw [heq]; rfl
      rw [htasks]
      by_cases hother : other = task
      · rw [hother, List.set_set, hset]
        exact Nat.le_add_right _ _
      · have hover := stepsLeft_over_le (c.tasks.set task now) other role .aborted
        rw [List.set_comm _ _ hother]
        simp only [stepsLeft] at hset ⊢
        omega

theorem HungUp.stepsLeft_go? (hc : HungUp c) (h : c.go? strand turn = some d) : d.stepsLeft < c.stepsLeft := by
  obtain ⟨was, more, now, hwas, hmove, hreaches⟩ := move_of_go? h
  obtain ⟨_, hwas', -, now', e, hdeed, -, hd⟩ := stride_of_go? h
  obtain rfl := Option.some.inj (hwas.symm.trans hwas')
  have htasks : d.tasks = e.tasks.set strand.task now' := tasks_eq_of_ledger hd
  have hnow := hreaches.now_eq
  rw [htasks, List.getElem?_set_self'] at hnow
  obtain ⟨_, -, hsame⟩ := Option.map_eq_some_iff.mp hnow
  obtain rfl : now' = now := hsame
  have hsteps := hc.steps_of_move hwas hmove
  have hsum := hdeed.stepsLeft_le hwas
  rw [← htasks] at hsum
  rw [stepsLeft]
  omega

/-! ## Histories -/

/-- Only a call that is made adds to the steps that are left, and every step takes one off. -/
theorem HungUp.stepsLeft_perform? (hc : HungUp c) (h : c.perform? action = some d) :
    d.stepsLeft + (if action.isStep then 1 else 0) ≤
      c.stepsLeft + 10 * (if action.isCall then 1 else 0) := by
  cases action with
  | go strand turn => exact hc.stepsLeft_go? h
  | call call =>
    cases h
    simp [addTask, stepsLeft, Task.stepsLeft, ClientAction.isStep, ClientAction.isCall]
  | pass millis =>
    obtain ⟨-, hd⟩ := Option.ite_none_right_eq_some.mp h
    cases hd
    exact Nat.le_refl _
  | arrive | lose | setRefusals | setUnanswered | setWriteFaults =>
    cases h
    exact Nat.le_refl _

/-- However long a history goes on after the client has hung up, the tasks make no more steps than they had
left, and ten more for each call that is made. -/
theorem HungUp.count_steps (hc : HungUp c) {later : List ClientAction} (h : c.performAll? later = some d) :
    d.stepsLeft + later.countP ClientAction.isStep ≤
      c.stepsLeft + 10 * later.countP ClientAction.isCall := by
  induction later generalizing c with
  | nil =>
    cases h
    exact Nat.le_refl _
  | cons action later ih =>
    obtain ⟨e, he : c.perform? action = some e, hd⟩ := Option.bind_eq_some_iff.mp h
    have hfirst := hc.stepsLeft_perform? he
    have hrest := ih (hc.perform? he) hd
    rw [List.countP_cons, List.countP_cons]
    omega

end Client

end AlarmPanel
