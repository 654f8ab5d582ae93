import AlarmPanel.Proofs.Client.Outlook

/-!
# The signal to shut down

A call that closes the client gives the signal to shut down in its first step, and the signal is kept only if
somebody listens at that moment (`Client.closing_of_performAll?`). While it is kept, whoever listens can go on
by it, and no time passes before that (`Client.exists_signal_iff`, `Client.perform?_pass_of_listens`). A
signal that nobody heard is lost, and who comes to listen later does not learn of it.
-/

namespace AlarmPanel

/-! ## Listening -/

def ConnectPlace.pauses : ConnectPlace → Bool
  | .pausing _ => true
  | _ => false

/-- Whether a strand that sends a line pauses after a failed dial. -/
def SendPlace.pauses (place : SendPlace) : Bool := place.connectPlace?.any ConnectPlace.pauses

namespace Task

theorem listens_receive_connecting (place : ConnectPlace) :
    (receive (.connecting place)).listens = place.pauses := by
  cases place <;> rfl

theorem listens_call_connecting (asked : Call) (place : ConnectPlace) :
    (call asked (.connecting place)).listens = place.pauses := by
  cases place <;> rfl

theorem listens_call_sending (asked : Call) (line : String) (place : SendPlace) :
    (call asked (.sending line place)).listens = place.pauses := by
  rcases place with (_ | _ | _ | _ | _ | _) | _ | _ | _ <;> rfl

theorem listens_call_requesting (asked : Call) (slot : Nat) (command : String) (patience : Duration)
    (line : String) (place : SendPlace) :
    (call asked (.requesting slot command patience line place)).listens = place.pauses := by
  rcases place with (_ | _ | _ | _ | _ | _) | _ | _ | _ <;> rfl

theorem listens_call_updating (asked : Call) (branches : Branches) :
    (call asked (.updating branches)).listens = (branches.filterMap id).any SendPlace.pauses := by
  refine List.any_filterMap.trans (congrArg (branches.filterMap id).any (funext fun place => ?_))
  rcases place with (_ | _ | _ | _ | _ | _) | _ | _ | _ <;> rfl

end Task

/-- A branch pauses if and only if the branch at some place does. -/
theorem any_pauses_branches (branches : Branches) :
    (branches.filterMap id).any SendPlace.pauses = true ↔
      ∃ branch < branches.length, branches[branch]?.join.any SendPlace.pauses = true := by
  constructor
  · intro h
    obtain ⟨place, hplace, hpauses⟩ := List.any_eq_true.mp h
    obtain ⟨_, hmem, rfl⟩ := List.mem_filterMap.mp hplace
    obtain ⟨branch, hbranch, hget⟩ := List.mem_iff_getElem.mp hmem
    refine ⟨branch, hbranch, ?_⟩
    rw [List.getElem?_eq_getElem hbranch, hget]
    exact hpauses
  · rintro ⟨branch, hbranch, hpauses⟩
    rw [List.getElem?_eq_getElem hbranch] at hpauses
    obtain ⟨place, hplace, hpauses⟩ := (Option.any_eq_true _ _).mp hpauses
    refine List.any_eq_true.mpr ⟨place, List.mem_filterMap.mpr ⟨_, List.getElem_mem hbranch, ?_⟩, hpauses⟩
    exact hplace

namespace Client

variable {c d : Client}

theorem isSome_connectStep?_signal (strand : Strand) (place : ConnectPlace) (c : Client) :
    (c.connectStep? strand .signal place).isSome = (place.pauses && c.shutdown) := by
  cases place with
  | pausing wake => cases h : c.shutdown <;> simp [connectStep?, ConnectPlace.pauses, h]
  | asking | queued | checking | dialing | announcing => rfl

theorem isSome_sendStep?_signal (strand : Strand) (line : String) (place : SendPlace) (c : Client) :
    (c.sendStep? strand .signal line place).isSome = (place.pauses && c.shutdown) := by
  cases place with
  | connecting place => exact Option.isSome_map.trans (isSome_connectStep?_signal strand place c)
  | asking | queued | writing => rfl

theorem isSome_updateStep?_signal (strand : Strand) (branches : Branches) (c : Client) :
    (c.updateStep? strand .signal branches).isSome
      = (branches[strand.branch]?.join.any SendPlace.pauses && c.shutdown) := by
  unfold updateStep?
  rcases branches[strand.branch]? with _ | _ | place
  · rfl
  · rfl
  · exact Option.isSome_map.trans (isSome_sendStep?_signal strand _ place c)

theorem isSome_receiveStep?_signal (strand : Strand) (place : ReceivePlace) (c : Client) :
    (c.receiveStep? strand .signal place).isSome = ((Task.receive place).listens && c.shutdown) := by
  cases place with
  | connecting place =>
    rw [Task.listens_receive_connecting]
    exact Option.isSome_map.trans (isSome_connectStep?_signal strand place c)
  | fresh | reading => rfl

/-- A refresh task that has begun hears the signal in the branch beside its update. -/
theorem refreshStep?_signal_of_updating (task : Nat) (branches : Branches) (c : Client) :
    c.refreshStep? ⟨task, branches.length⟩ .signal (.updating branches) =
      if c.shutdown then some (c.finish task .refresh .stopped) else none := by
  simp [refreshStep?]

theorem shutdown_of_refreshStep?_signal {strand : Strand} {place : RefreshPlace}
    (h : c.refreshStep? strand .signal place = some d) : c.shutdown = true := by
  unfold refreshStep? at h
  cases place with
  | fresh => cases h
  | resting => exact (Option.ite_none_right_eq_some.mp h).1
  | updating branches =>
    dsimp only at h
    split at h
    next => exact (Option.ite_none_right_eq_some.mp h).1.2
    next =>
      obtain ⟨_, hstep, -⟩ := Option.map_eq_some_iff.mp h
      have hsome := isSome_updateStep?_signal strand branches c
      rw [hstep, Option.isSome_some, eq_comm, Bool.and_eq_true] at hsome
      exact hsome.2

/-- A call that carries on nothing side by side hears the signal if it listens. -/
theorem isSome_callStep?_signal (strand : Strand) (call : Call) (place : CallPlace) (c : Client)
    (hplace : ∀ branches, place ≠ .updating branches) :
    (c.callStep? strand .signal call place).isSome = ((Task.call call place).listens && c.shutdown) := by
  cases place with
  | connecting place =>
    rw [Task.listens_call_connecting]
    exact Option.isSome_map.trans (isSome_connectStep?_signal strand place c)
  | sending line place =>
    rw [Task.listens_call_sending]
    exact Option.isSome_map.trans (isSome_sendStep?_signal strand line place c)
  | requesting slot command patience line place =>
    rw [Task.listens_call_requesting]
    exact Option.isSome_map.trans (isSome_sendStep?_signal strand line place c)
  | updating branches => exact absurd rfl (hplace branches)
  | fresh | awaiting | launched | hangingUp | collecting | joining | stoppingRefresh | stoppingReceive =>
    rfl

/-- An update that was called for hears the signal if one of its branches pauses. -/
theorem exists_updating_signal_iff (task : Nat) (call : Call) (branches : Branches) (c : Client) :
    (∃ branch < branches.length,
        (c.callStep? ⟨task, branch⟩ .signal call (.updating branches)).isSome = true) ↔
      (Task.call call (.updating branches)).listens = true ∧ c.shutdown = true := by
  have hbranch (branch : Nat) :
      (c.callStep? ⟨task, branch⟩ .signal call (.updating branches)).isSome =
        (branches[branch]?.join.any SendPlace.pauses && c.shutdown) :=
    Option.isSome_map.trans (isSome_updateStep?_signal ⟨task, branch⟩ branches c)
  simp only [hbranch, Bool.and_eq_true, Task.listens_call_updating, any_pauses_branches]
  exact ⟨fun ⟨branch, hlt, hpauses, hkept⟩ => ⟨⟨branch, hlt, hpauses⟩, hkept⟩,
    fun ⟨⟨branch, hlt, hpauses⟩, hkept⟩ => ⟨branch, hlt, hpauses, hkept⟩⟩

theorem exists_refresh_signal_iff (task : Nat) (place : RefreshPlace) (c : Client) :
    (∃ branch ∈ (Task.refresh place).branches,
        (c.refreshStep? ⟨task, branch⟩ .signal place).isSome = true) ↔
      (Task.refresh place).listens = true ∧ c.shutdown = true := by
  constructor
  · rintro ⟨branch, -, hsome⟩
    obtain ⟨d, hd⟩ := Option.isSome_iff_exists.mp hsome
    refine ⟨?_, shutdown_of_refreshStep?_signal hd⟩
    cases place with
    | fresh => cases hd
    | resting | updating => rfl
  · rintro ⟨hlistens, hkept⟩
    cases place with
    | fresh => cases hlistens
    | resting wake => exact ⟨0, List.mem_singleton_self 0, by simp [refreshStep?, hkept]⟩
    | updating branches =>
      -- Its branches may pause or not; the one beside them hears the signal all the time.
      refine ⟨branches.length, List.mem_range.mpr (Nat.lt_succ_self _), ?_⟩
      rw [refreshStep?_signal_of_updating, if_pos hkept]
      rfl

/-- Whoever listens can go on by the signal if and only if it is kept, and nobody else ever can. -/
theorem exists_signal_iff {task : Nat} {state : Task} (h : c.tasks[task]? = some state) :
    (∃ branch, (c.go? ⟨task, branch⟩ .signal).isSome = true) ↔
      state.listens = true ∧ c.shutdown = true := by
  simp only [isSome_go?_iff h]
  cases state with
  | receive place =>
    simp only [isSome_receiveStep?_signal, Bool.and_eq_true]
    exact ⟨fun ⟨_, _, hsome⟩ => hsome, fun hsome => ⟨0, List.mem_singleton_self 0, hsome⟩⟩
  | refresh place => exact exists_refresh_signal_iff task place c
  | call call place =>
    -- Only an update carries on several strands, and then any of them may be the one that pauses.
    by_cases hplace : ∃ branches, place = .updating branches
    · obtain ⟨branches, rfl⟩ := hplace
      simp only [Task.branches, List.mem_range]
      exact exists_updating_signal_iff task call branches c
    · have hbranches : (Task.call call place).branches = [0] := by
        cases place with
        | updating branches => exact absurd ⟨branches, rfl⟩ hplace
        | _ => rfl
      simp only [isSome_callStep?_signal _ call place c (not_exists.mp hplace), hbranches,
        Bool.and_eq_true]
      exact ⟨fun ⟨_, _, hsome⟩ => hsome, fun hsome => ⟨0, List.mem_singleton_self 0, hsome⟩⟩
  | _ =>
    exact ⟨fun ⟨_, hbranch, _⟩ => absurd hbranch List.not_mem_nil, fun hsome => (nomatch hsome.1)⟩

/-- While the signal is kept no time passes before those who listen stop. -/
theorem perform?_pass_of_listens {task : Nat} {state : Task} (h : c.tasks[task]? = some state)
    (hlistens : state.listens = true) (hkept : c.shutdown = true) (millis : Nat) :
    c.perform? (.pass millis) = none := by
  obtain ⟨branch, hsome⟩ := (exists_signal_iff h).mpr ⟨hlistens, hkept⟩
  obtain ⟨d, hd⟩ := Option.isSome_iff_exists.mp hsome
  exact perform?_pass_of_go? (by decide) hd millis

/-! ## Histories -/

/-- The clients in which a call that closes them makes its first step, in a history. -/
def closings : List ClientAction → Client → List Client
  | [], _ => []
  | action :: actions, c =>
    (if c.beginsClose action then [c] else []) ++ ((c.perform? action).map (closings actions)).getD []

/-- Somebody listened when a call began to close the client, in a history. -/
def Heard (actions : List ClientAction) (c : Client) : Prop :=
  ∃ d ∈ closings actions c, d.hasListener = true

/-- The first step of a call that closes the client closes it, and gives the signal; nothing else does. -/
theorem closing_of_perform? {action : ClientAction} (h : c.perform? action = some d) :
    d.closed = (c.closed || c.beginsClose action) ∧
      d.shutdown = (c.shutdown || (c.beginsClose action && c.hasListener)) := by
  have houtlook := outlook_of_perform? h
  cases hbegins : c.beginsClose action with
  | true =>
    rw [hbegins, if_pos rfl] at houtlook
    rw [Bool.or_true, Bool.true_and]
    exact ⟨congrArg Outlook.closed houtlook, congrArg Outlook.shutdown houtlook⟩
  | false =>
    rw [hbegins, if_neg Bool.false_ne_true] at houtlook
    rw [Bool.or_false, Bool.false_and, Bool.or_false]
    cases hline : c.lineRead? action with
    | none =>
      rw [hline] at houtlook
      exact ⟨congrArg Outlook.closed houtlook, congrArg Outlook.shutdown houtlook⟩
    | some bytes =>
      rw [hline] at houtlook
      exact ⟨(congrArg Outlook.closed houtlook).trans (Outlook.closed_takeIn bytes _),
        (congrArg Outlook.shutdown houtlook).trans (Outlook.shutdown_takeIn bytes _)⟩

theorem closings_cons {action : ClientAction} (actions : List ClientAction)
    (h : c.perform? action = some d) :
    closings (action :: actions) c = (if c.beginsClose action then [c] else []) ++ closings actions d := by
  rw [closings, h, Option.map_some, Option.getD_some]

/-- A client is closed once a call that closes it has begun, and told to shut down once somebody has
listened when such a call began. -/
theorem closing_of_performAll? {actions : List ClientAction} (h : c.performAll? actions = some d) :
    (d.closed = true ↔ c.closed = true ∨ closings actions c ≠ []) ∧
      (d.shutdown = true ↔ c.shutdown = true ∨ Heard actions c) := by
  induction actions generalizing c with
  | nil =>
    cases h
    simp [Heard, closings]
  | cons action actions ih =>
    obtain ⟨e, he : c.perform? action = some e, hd⟩ := Option.bind_eq_some_iff.mp h
    obtain ⟨hclosed, hshutdown⟩ := closing_of_perform? he
    obtain ⟨hclosed', hshutdown'⟩ := ih hd
    rw [hclosed', hshutdown', hclosed, hshutdown, Heard, Heard, closings_cons actions he]
    cases c.beginsClose action <;> simp [or_assoc]

variable {settings : ClientSettings} {handlers : Handlers} {link : Link} {actions : List ClientAction}

/-- After every history of a new client the signal to shut down is kept if and only if somebody listened
when a call began to close the client. Then whoever listens can go on by it, and no time passes before; if
it is not kept, nobody goes on by it. -/
theorem signal_kept_iff_heard (h : (new settings handlers link).performAll? actions = some c) :
    (c.closed = true ↔ closings actions (new settings handlers link) ≠ []) ∧
    (c.shutdown = true ↔ Heard actions (new settings handlers link)) ∧
    ∀ task state, c.tasks[task]? = some state →
      ((∃ branch, (c.go? ⟨task, branch⟩ .signal).isSome = true) ↔
        state.listens = true ∧ Heard actions (new settings handlers link)) ∧
      (state.listens = true → Heard actions (new settings handlers link) →
        ∀ millis, c.perform? (.pass millis) = none) := by
  obtain ⟨hclosed, hshutdown⟩ := closing_of_performAll? h
  have hkept : c.shutdown = true ↔ Heard actions (new settings handlers link) :=
    hshutdown.trans (or_iff_right Bool.false_ne_true)
  refine ⟨hclosed.trans (or_iff_right Bool.false_ne_true), hkept,
    fun task state hstate => ⟨?_, fun hlistens hheard => ?_⟩⟩
  · rw [← hkept]
    exact exists_signal_iff hstate
  · exact perform?_pass_of_listens hstate hlistens (hkept.mpr hheard)

/-- A client that is closed while its refresh task rests: the task can stop, and time waits for it. -/
theorem signal_kept_iff_heard_resting :
    let c₀ := new .default ⟨none, none, none, none⟩ (.new false false false)
    let actions : List ClientAction :=
      [.call .start, .go ⟨0, 0⟩ .own, .go ⟨2, 0⟩ .own, .call .close, .go ⟨3, 0⟩ .own]
    ∃ c, c₀.performAll? actions = some c ∧ c.shutdown = true ∧
      (∃ branch, (c.go? ⟨2, branch⟩ .signal).isSome = true) ∧ ∀ millis, c.perform? (.pass millis) = none := by
  intro c₀ actions
  have hrun : (c₀.performAll? actions).any fun c => c.tasks[2]? = some (.refresh (.resting 60000)) := by
    decide +kernel
  have hheard : Heard actions c₀ := List.any_eq_true.mp (by decide +kernel)
  obtain ⟨c, hc, hrests⟩ := (Option.any_eq_true _ _).mp hrun
  obtain ⟨-, hkept, htask⟩ := signal_kept_iff_heard hc
  obtain ⟨hsignal, hpass⟩ := htask 2 _ (of_decide_eq_true hrests)
  exact ⟨c, hc, hkept.mpr hheard, hsignal.mpr ⟨rfl, hheard⟩, hpass rfl hheard⟩

/-- A client that is closed before it is started: the signal is lost, so the refresh task of a call that
keeps the client up rests to the end of its interval, with nothing else going on. -/
theorem signal_lost_before_start :
    let c₀ := new .default ⟨none, none, none, none⟩ (.new false false false)
    let actions : List ClientAction :=
      [.call .close] ++ .replicate 3 (.go ⟨0, 0⟩ .own) ++ [.call .keepalive] ++
        .replicate 3 (.go ⟨1, 0⟩ .own) ++ [.go ⟨2, 0⟩ .own, .go ⟨3, 0⟩ .own]
    ∃ c, c₀.performAll? actions = some c ∧ closings actions c₀ ≠ [] ∧ c.shutdown = false ∧
      c.tasks[3]? = some (.refresh (.resting 60000)) ∧ c.now = 0 ∧ c.ready = [] := by
  intro c₀ actions
  have hrun : (c₀.performAll? actions).any fun c => c.shutdown = false ∧
      c.tasks[3]? = some (.refresh (.resting 60000)) ∧ c.now = 0 ∧ c.ready = [] := by
    decide +kernel
  obtain ⟨c, hc, hlost⟩ := (Option.any_eq_true _ _).mp hrun
  exact ⟨c, hc, by decide +kernel, of_decide_eq_true hlost⟩

end Client

end AlarmPanel
