import AlarmPanel.Proofs.Circuit.Dials

/-!
# The last notice of the link

Whoever brings the link up makes it known in a later step, and the receive task gives notice of a loss when its read
comes to an end. So the two may come in the wrong order: when the link is made known before the receive task has
noticed that a former one was gone, the notice of the loss is the later one, and it stays the last one while the
receive task reads from the link that is up (`Client.last_notice_of_last_rise`).
-/

namespace AlarmPanel

/-- The notice that the link is up or lost, if an effect is one. -/
def Effect.linkNotice? : Effect → Option Notice
  | .notified .connected => some .connected
  | .notified .disconnected => some .disconnected
  | _ => none

/-- The last notice that the link is up or lost. -/
def lastLinkNotice (effects : List Effect) : Option Notice := (effects.filterMap Effect.linkNotice?).getLast?

variable {effects more : List Effect}

theorem Effect.linkNotice?_of_tells {effect : Effect} (h : effect.tells = false) :
    effect.linkNotice? = none := by
  unfold Effect.linkNotice?
  split
  next => cases h
  next => cases h
  next => rfl

/-- What tells nothing is not the last notice. -/
theorem lastLinkNotice_append (hmore : ∀ effect ∈ more, effect.tells = false) :
    lastLinkNotice (effects ++ more) = lastLinkNotice effects := by
  have hnone : more.filterMap Effect.linkNotice? = [] :=
    List.filterMap_eq_nil_iff.mpr fun effect heffect => Effect.linkNotice?_of_tells (hmore effect heffect)
  rw [lastLinkNotice, List.filterMap_append, hnone, List.append_nil, lastLinkNotice]

theorem lastLinkNotice_dialed {begun : List Effect} (hbegun : ∀ effect ∈ begun, effect.tells = false) :
    lastLinkNotice (effects ++ (begun ++ [.dialed .connected])) = lastLinkNotice effects := by
  have hdialed : lastLinkNotice ((effects ++ begun) ++ [.dialed .connected]) = lastLinkNotice (effects ++ begun) := by
    rw [lastLinkNotice, List.filterMap_append]
    exact congrArg List.getLast? (List.append_nil _)
  rw [← List.append_assoc, hdialed, lastLinkNotice_append hbegun]

theorem lastLinkNotice_connected (effects : List Effect) :
    lastLinkNotice (effects ++ [.notified .connected]) = some .connected := by
  rw [lastLinkNotice, List.filterMap_append]
  exact List.getLast?_concat

theorem lastLinkNotice_disconnected (effects : List Effect) :
    lastLinkNotice (effects ++ [.notified .disconnected]) = some .disconnected := by
  rw [lastLinkNotice, List.filterMap_append]
  exact List.getLast?_concat

namespace Circuit

open Relation

variable {k l : Circuit} {rise : Option (Bool × Option Notice)}

/-- Whether the receive task is in a read. -/
def Reads (k : Circuit) : Prop := ∃ task number, k.receivers task = some (.reading number)

/-- How the last notice fits the link. If the link has come up or has been made known, `rise` is whether the receive
task was in a read when one of these was last done, and the notice that would be the last one if it was not. -/
structure Told (rise : Option (Bool × Option Notice)) (k : Circuit) : Prop where
  lone : Lone k
  /-- Nobody reads from a link that is still to be made known. -/
  former : ∀ task number, k.receivers task = some (.reading number) →
    number ≤ k.number ∧ (k.announces = true → number < k.number)
  /-- A link that is up has been told of last, unless it has been up from the first or has never been told of. -/
  truth : (∀ last, rise ≠ some (true, last)) → (k.up = true → lastLinkNotice k.effects = rise.bind Prod.snd) ∧
    ∀ task number, k.receivers task = some (.reading number) → number = k.number
  /-- The loss of the former link has been told, or is still to be noticed, or nobody is left to notice it. -/
  late : ∀ last, rise = some (true, last) → lastLinkNotice k.effects = some .disconnected ∨ ∃ task,
    (∃ number < k.number, k.receivers task = some (.reading number)) ∨ k.receivers task = some .over

/-- As long as the link does not come up again and is not made known, the last notice goes on to fit it. -/
theorem Told.shift (hk : Told rise k) (h : k.Shift l) (hnumber : l.number = k.number)
    (hups : ups l.effects = ups k.effects) : Told rise l := by
  have hlone := hk.lone.shift h
  cases h with
  | quiet more _ _ hup hannounces hreceivers heffects hmore =>
    have hlast : lastLinkNotice l.effects = lastLinkNotice k.effects := by
      rw [heffects, lastLinkNotice_append hmore]
    have hbefore {task number : Nat} (hread : l.receivers task = some (.reading number)) :
        k.receivers task = some (.reading number) := reads_of_quiet (hreceivers task) hread
    refine ⟨hlone, fun task number hread => ?_, fun hrise => ?_, fun last hrise => ?_⟩
    · rw [hnumber]
      exact (hk.former task number (hbefore hread)).imp id fun hless hl => hless (hannounces hl)
    · obtain ⟨htrue, hreads⟩ := hk.truth hrise
      exact ⟨fun h => hlast.trans (htrue (hup h)), fun task number hread =>
        (hreads task number (hbefore hread)).trans hnumber.symm⟩
    · rw [hlast, hnumber]
      refine (hk.late last hrise).imp id fun ⟨task, hlate⟩ => ⟨task, ?_⟩
      rcases hreceivers task with hsame | ⟨-, hover⟩
      · rwa [hsame]
      · exact .inr hover
  | succeed _ hnext => omega
  | announce _ _ _ _ _ _ heffects =>
    rw [heffects, ups_append, ups_connected] at hups
    omega
  | @launch task hstarted hl =>
    subst hl
    refine ⟨hlone, fun other number hread => hk.former other number (reads_of_connecting hread).2, fun hrise => ?_,
      fun last hrise => ?_⟩
    · exact ⟨(hk.truth hrise).1, fun other number hread =>
        (hk.truth hrise).2 other number (reads_of_connecting hread).2⟩
    · refine (hk.late last hrise).imp id fun ⟨other, hlate⟩ => ?_
      have hnone := hk.lone.receivers_eq_none hstarted other
      rcases hlate with ⟨_, -, hread⟩ | hover
      · cases hnone.symm.trans hread
      · cases hnone.symm.trans hover
  | @read task hreceiver hquiet _ hl =>
    subst hl
    refine ⟨hlone, fun other number hread => ?_, fun hrise => ⟨(hk.truth hrise).1, fun other number hread => ?_⟩,
      fun last hrise => ?_⟩
    · rcases reads_of_reading hread with rfl | hread
      · exact ⟨Nat.le_refl _, fun hannounces => by cases hquiet.symm.trans hannounces⟩
      · exact hk.former other number hread
    · exact (reads_of_reading hread).elim id ((hk.truth hrise).2 other number)
    · refine (hk.late last hrise).imp id fun ⟨other, hlate⟩ => ?_
      rcases hlate with ⟨_, -, hread⟩ | hover
      · cases (hk.lone.receiver_eq hreceiver hread).2
      · cases (hk.lone.receiver_eq hreceiver hover).2
  | @lose task number hreceiver hgone hl =>
    subst hl
    refine ⟨hlone, fun other read hread => hk.former other read (reads_of_connecting hread).2,
      fun hrise => ⟨fun hup => ?_, fun other read hread => ?_⟩,
      fun _ _ => .inl (lastLinkNotice_disconnected k.effects)⟩
    · -- The link that has been read from is the one that came up last, so it is not up.
      exact absurd ((hk.truth hrise).2 task number hreceiver).symm (hgone hup)
    · exact (hk.truth hrise).2 other read (reads_of_connecting hread).2

/-- When the link comes up or is made known, a read that goes on then is on a former link. -/
theorem Told.again {reads : Bool} (hk : Told rise k) (h : k.Shift l)
    (hrises : l.number ≠ k.number ∨ ups l.effects ≠ ups k.effects) (hreads : reads = true ↔ k.Reads) :
    Told (some (reads, if k.announces = true then some .connected else lastLinkNotice k.effects)) l := by
  have hlone := hk.lone.shift h
  have hnew {last : Option Notice} (hreceivers : l.receivers = k.receivers)
      (hformer : ∀ task number, k.receivers task = some (.reading number) → number < l.number)
      (hlast : lastLinkNotice l.effects = last) : Told (some (reads, last)) l := by
    refine ⟨hlone, fun task number hread => ?_, fun hrise => ⟨fun _ => hlast, fun task number hread => ?_⟩,
      fun _ hrise => ?_⟩
    · have hless := hformer task number (hreceivers ▸ hread)
      exact ⟨Nat.le_of_lt hless, fun _ => hless⟩
    · have htrue := hreads.mpr ⟨task, number, hreceivers ▸ hread⟩
      exact absurd (congrArg (fun reads => some (reads, last)) htrue) (hrise last)
    · obtain ⟨task, number, hread⟩ := hreads.mp (congrArg Prod.fst (Option.some.inj hrise))
      exact .inr ⟨task, .inl ⟨number, hformer task number hread, hreceivers ▸ hread⟩⟩
  cases h with
  | quiet _ _ hsame _ _ _ heffects hmore =>
    exact absurd hrises (not_or.mpr ⟨not_not.mpr hsame, by simp [heffects, ups_eq_zero hmore]⟩)
  | launch _ hl | read _ _ _ hl | lose _ _ hl =>
    subst hl
    exact absurd hrises (not_or.mpr ⟨not_not.mpr rfl, by simp [setReceiver, record]⟩)
  | succeed _ hnext hbefore _ hreceivers heffects hbegun =>
    rw [if_neg (by rw [hbefore]; exact Bool.false_ne_true)]
    refine hnew hreceivers (fun task number hread => ?_) (heffects ▸ lastLinkNotice_dialed hbegun)
    have hle := (hk.former task number hread).1
    omega
  | announce _ hsame _ hannounces _ hreceivers heffects =>
    rw [if_pos hannounces]
    refine hnew hreceivers (fun task number hread => ?_) (heffects ▸ lastLinkNotice_connected k.effects)
    rw [hsame]
    exact (hk.former task number hread).2 hannounces

/-- What has been told last while the receive task reads from a link that is up. -/
theorem Told.last {task : Nat} (hk : Told rise k) (hreads : k.receivers task = some (.reading k.number))
    (hup : k.up = true) :
    lastLinkNotice k.effects = rise.bind fun (reads, last) => if reads = true then some .disconnected else last := by
  rcases rise with _ | ⟨_ | _, last⟩
  · exact (hk.truth nofun).1 hup
  · exact (hk.truth fun _ h => by cases h).1 hup
  · -- It has noticed the loss of the former link, or it would not read from this one.
    refine (hk.late last rfl).resolve_right ?_
    rintro ⟨other, ⟨number, hlt, hread⟩ | hover⟩
    · cases (hk.lone.receiver_eq hreads hread).2
      exact Nat.lt_irrefl _ hlt
    · cases (hk.lone.receiver_eq hreads hover).2

theorem Told.asides (hk : Told rise k) (horder : Orderly k.lock k.places) (h : ReflTransGen Aside k l) :
    Told rise l :=
  (asides_induction (P := fun m => Orderly m.lock m.places ∧ Told rise m)
    (fun haside ⟨hm, htold⟩ => ⟨haside.orderly hm,
      htold.shift (haside.shift hm) (asides_number (.single haside)) haside.counts_eq.2⟩) h ⟨horder, hk⟩).2

end Circuit

/-- Whether a task is the receive task, in a read. -/
def Task.reads : Task → Bool
  | .receive (.reading _) => true
  | _ => false

theorem Task.reads_iff {task : Task} :
    task.reads = true ↔ ∃ number, task.receiver? = some (.reading number) := by
  constructor
  · intro h
    unfold Task.reads at h
    split at h
    next number => exact ⟨number, rfl⟩
    next => cases h
  · rintro ⟨number, h⟩
    unfold Task.receiver? at h
    split at h
    next => rfl
    next => cases h
    next => cases h
    next => cases h

namespace Client

variable {c d : Client} {action : ClientAction} {actions : List ClientAction} {task : Nat}
  {rise : Option (Bool × Option Notice)}

/-- Whether the receive task is in a read. -/
def reads (c : Client) : Bool := c.tasks.any Task.reads

/-- Whether the link comes up, or is made known, between the two clients. -/
def risesTo (c d : Client) : Bool := d.link.number ≠ c.link.number || d.announcements ≠ c.announcements

/-- The clients of a history just before the link comes up, or is made known. -/
def rises : List ClientAction → Client → List Client
  | [], _ => []
  | action :: actions, c =>
    ((c.perform? action).map fun d => (if c.risesTo d then [c] else []) ++ rises actions d).getD []

/-- The client just before the link came up or was made known for the last time in a history. -/
def lastRise? (actions : List ClientAction) (c : Client) : Option Client := (rises actions c).getLast?

/-- The notice that is the last one when the receive task reads from the link that comes up, or is made known, next
after this client: it has still to notice the loss of a former link if it is in a read. -/
def lastTold (c : Client) : Option Notice :=
  if c.reads then some .disconnected else if c.announces then some .connected else lastLinkNotice c.effects

theorem reads_iff (c : Client) : c.reads = true ↔ c.circuit.Reads := by
  rw [reads, List.any_eq_true]
  constructor
  · rintro ⟨state, hmem, hreads⟩
    obtain ⟨task, htask⟩ := List.mem_iff_getElem?.mp hmem
    obtain ⟨number, hnumber⟩ := Task.reads_iff.mp hreads
    exact ⟨task, number, (receiverAt_of_task htask).trans hnumber⟩
  · rintro ⟨task, number, hreads⟩
    obtain ⟨state, htask, hnumber⟩ := Option.bind_eq_some_iff.mp hreads
    exact ⟨state, List.mem_of_getElem? htask, Task.reads_iff.mpr ⟨number, hnumber⟩⟩

/-- The last notice fits the link after a step, if it did so before. -/
theorem told_of_perform? (hk : Orderly c.connectLock fun strand => c.connectAt strand)
    (hc : Circuit.Told rise c.circuit) (h : c.perform? action = some d) :
    Circuit.Told (if c.risesTo d then
      some (c.reads, if c.announces = true then some .connected else lastLinkNotice c.effects) else rise)
      d.circuit := by
  obtain ⟨m, hshift, hm, hasides⟩ := (step_of_perform? h).shift_asides hk
  have hnumber : d.link.number = m.number := Circuit.asides_number hasides
  have hups : d.announcements = ups m.effects := (Circuit.asides_counts_eq hasides).2
  have hrises : c.risesTo d = true ↔ m.number ≠ c.circuit.number ∨ ups m.effects ≠ ups c.circuit.effects := by
    rw [risesTo, Bool.or_eq_true, decide_eq_true_iff, decide_eq_true_iff, hnumber, hups]
    rfl
  by_cases hrise : c.risesTo d = true
  · rw [if_pos hrise]
    exact (hc.again hshift (hrises.mp hrise) (reads_iff c)).asides hm hasides
  · rw [if_neg hrise]
    obtain ⟨hsame, hsame'⟩ := not_or.mp (mt hrises.mpr hrise)
    exact (hc.shift hshift (not_not.mp hsame) (not_not.mp hsame')).asides hm hasides

theorem lastRise?_cons (actions : List ClientAction) (h : c.perform? action = some d) :
    lastRise? (action :: actions) c = (lastRise? actions d).or (if c.risesTo d then some c else none) := by
  rw [lastRise?, rises, h, Option.map_some, Option.getD_some, List.getLast?_append]
  split <;> rfl

/-- The last notice fits the link after a history, if it did so before. -/
theorem told_of_performAll? (hk : Orderly c.connectLock fun strand => c.connectAt strand)
    (hc : Circuit.Told rise c.circuit) (h : c.performAll? actions = some d) :
    Circuit.Told (((lastRise? actions c).map fun e =>
      (e.reads, if e.announces = true then some .connected else lastLinkNotice e.effects)).or rise) d.circuit := by
  induction actions generalizing c rise with
  | nil =>
    cases h
    exact hc
  | cons action actions ih =>
    obtain ⟨e, he : c.perform? action = some e, hd⟩ := Option.bind_eq_some_iff.mp h
    have htold := ih (orderly_perform? he hk) (told_of_perform? hk hc he) hd
    rw [lastRise?_cons actions he, Option.map_or, Option.or_assoc]
    split at htold
    next hrise => rwa [if_pos hrise]
    next hrise => rwa [if_neg hrise]

/-- If the link never comes up in a history, its number is what it was. -/
theorem number_eq_of_lastRise? (h : c.performAll? actions = some d) (hnever : lastRise? actions c = none) :
    d.link.number = c.link.number := by
  induction actions generalizing c with
  | nil =>
    cases h
    rfl
  | cons action actions ih =>
    obtain ⟨e, he : c.perform? action = some e, hd⟩ := Option.bind_eq_some_iff.mp h
    rw [lastRise?_cons actions he, Option.or_eq_none_iff] at hnever
    have hsame : e.link.number = c.link.number := by
      by_contra hne
      rw [if_pos (by rw [risesTo, decide_eq_true hne, Bool.true_or])] at hnever
      cases hnever.2
    exact (ih hd hnever.1).trans hsame

/-- When the link comes up it is to be made known afterwards, and when it is made known it was to be so before. -/
theorem announces_of_risesTo (hk : Orderly c.connectLock fun strand => c.connectAt strand)
    (h : c.perform? action = some d) (hrise : c.risesTo d = true) : c.announces = true ∨ d.announces = true := by
  cases counts_of_perform? hk h with
  | same hnumber _ hmade => simp [risesTo, hnumber, hmade] at hrise
  | dialled _ _ _ _ hannounces => exact .inr hannounces
  | told _ _ _ hannounces => exact .inl hannounces

/-- What is to be made known goes on to be so until it is made known, unless its strand is cut off. -/
theorem announces_of_not_risesTo (h : c.perform? action = some d) (hstays : ¬c.risesTo d = true)
    (hcut : c.cutsOff action = false) (hannounces : c.announces = true) : d.announces = true := by
  rw [risesTo, Bool.or_eq_true, decide_eq_true_iff, decide_eq_true_iff, not_or, not_not, not_not] at hstays
  rw [cutsOff_eq h, hannounces, Bool.true_and, hstays.2, decide_eq_true rfl, Bool.and_true, Bool.not_eq_false'] at hcut
  exact hcut

theorem announces_of_lastRise?_none (hk : Orderly c.connectLock fun strand => c.connectAt strand)
    (h : c.performAll? actions = some d) (htold : untold actions c = 0) (hnever : lastRise? actions c = none)
    (hannounces : c.announces = true) : d.announces = true := by
  induction actions generalizing c with
  | nil =>
    cases h
    exact hannounces
  | cons action actions ih =>
    obtain ⟨e, he : c.perform? action = some e, hd⟩ := Option.bind_eq_some_iff.mp h
    rw [untold_cons actions he, Nat.add_eq_zero_iff, Bool.toNat_eq_zero] at htold
    rw [lastRise?_cons actions he, Option.or_eq_none_iff] at hnever
    have hstays : ¬c.risesTo e = true := fun hrise => by cases (if_pos hrise).symm.trans hnever.2
    exact ih (orderly_perform? he hk) hd htold.2 hnever.1 (announces_of_not_risesTo he hstays htold.1 hannounces)

/-- Unless a strand is cut off, the link is made known last of all, or that is still to come. -/
theorem announces_of_lastRise? (hk : Orderly c.connectLock fun strand => c.connectAt strand)
    (h : c.performAll? actions = some d) (htold : untold actions c = 0) {e : Client}
    (hlast : lastRise? actions c = some e) : e.announces = true ∨ d.announces = true := by
  induction actions generalizing c with
  | nil => cases hlast
  | cons action actions ih =>
    obtain ⟨f, hf : c.perform? action = some f, hd⟩ := Option.bind_eq_some_iff.mp h
    rw [untold_cons actions hf, Nat.add_eq_zero_iff] at htold
    rw [lastRise?_cons actions hf] at hlast
    cases hrest : lastRise? actions f with
    | some g =>
      rw [hrest, Option.some_or] at hlast
      exact ih (orderly_perform? hf hk) hd htold.2 (hrest.trans hlast)
    | none =>
      rw [hrest, Option.none_or] at hlast
      obtain ⟨hrise, hc⟩ := Option.ite_none_right_eq_some.mp hlast
      obtain rfl := Option.some.inj hc
      exact (announces_of_risesTo hk hf hrise).imp id
        (announces_of_lastRise?_none (orderly_perform? hf hk) hd htold.2 hrest)

variable {settings : ClientSettings} {handlers : Handlers} {link : Link}

/-- After every history of a new client: while the receive task reads from a link that is up, the last notice
is that the link is up if the receive task was in no read just before it was made known, and that it is lost if the
receive task was in one, and so had still to notice the loss of a former link. A link whose dial has been cut off is
never made known, and the last notice is the one before it came up, or that of the loss of a former link. Only of a
link that has been up from the first there is no notice. -/
theorem last_notice_of_last_rise (h : (new settings handlers link).performAll? actions = some c)
    (hreads : c.tasks[task]? = some (.receive (.reading c.link.number))) (hup : c.link.up = true) :
    lastLinkNotice c.effects = (lastRise? actions (new settings handlers link)).bind lastTold ∧
    (untold actions (new settings handlers link) = 0 →
      lastLinkNotice c.effects = (lastRise? actions (new settings handlers link)).map fun d =>
        if d.reads = true then .disconnected else .connected) ∧
    (link.up = false → lastRise? actions (new settings handlers link) ≠ none) := by
  have hnew : Circuit.Told none (new settings handlers link).circuit :=
    ⟨⟨nofun, nofun⟩, nofun, fun _ => ⟨fun _ => rfl, nofun⟩, nofun⟩
  have hreceiver : c.circuit.receivers task = some (.reading c.link.number) := receiverAt_of_task hreads
  have htold := told_of_performAll? Orderly.free hnew h
  have hlast := htold.last hreceiver hup
  rw [Option.or_none, Option.bind_map] at hlast
  have hlast : lastLinkNotice c.effects = (lastRise? actions (new settings handlers link)).bind lastTold := hlast
  refine ⟨hlast, fun hnobody => ?_, fun hdown hnever => ?_⟩
  · rw [hlast]
    cases hrise : lastRise? actions (new settings handlers link) with
    | none => rfl
    | some d =>
      -- Nobody would read from the link if it were still to be made known.
      have hknown : d.announces = true := (announces_of_lastRise? Orderly.free h hnobody hrise).resolve_right fun hc =>
        Nat.lt_irrefl _ ((htold.former task _ hreceiver).2 hc)
      rw [Option.bind_some, Option.map_some, lastTold, if_pos hknown]
      split <;> rfl
  · obtain ⟨-, _, htally⟩ := exists_tally_of_performAll? hdown h
    have hnumber : c.link.number = link.number := number_eq_of_lastRise? h hnever
    have hcount := number_add_connections hdown h
    have hlt : losses c.effects < c.connections := htally.fresh (.inl hup)
    omega

/-- The receive task notices the loss of the link itself, and brings it up again. -/
theorem last_notice_of_last_rise_noticed :
    let c₀ := new .default ⟨none, none, none, none⟩ (.new false false false)
    let actions : List ClientAction :=
      [.call .start] ++ .replicate 2 (.go ⟨0, 0⟩ .own) ++ .replicate 5 (.go ⟨1, 0⟩ .own) ++
        [.go ⟨2, 0⟩ .own, .lose] ++ .replicate 6 (.go ⟨1, 0⟩ .own)
    ∃ c, c₀.performAll? actions = some c ∧ c.tasks[1]? = some (.receive (.reading c.link.number)) ∧
      c.link.up = true ∧ c.link.number = 2 ∧ lastLinkNotice c.effects = some .connected := by
  intro c₀ actions
  have hrun : (c₀.performAll? actions).any fun c =>
      c.tasks[1]? = some (.receive (.reading c.link.number)) ∧ c.link.up = true ∧ c.link.number = 2 := by
    decide +kernel
  have htold : untold actions c₀ = 0 := by decide +kernel
  have hrise : (lastRise? actions c₀).any fun d => d.reads = false := by decide +kernel
  obtain ⟨c, hc, hend⟩ := (Option.any_eq_true _ _).mp hrun
  obtain ⟨hreads, hup, hnumber⟩ := of_decide_eq_true hend
  obtain ⟨d, hd, hwas⟩ := (Option.any_eq_true _ _).mp hrise
  have hwas : d.reads = false := of_decide_eq_true hwas
  refine ⟨c, hc, hreads, hup, hnumber, ?_⟩
  rw [(last_notice_of_last_rise hc hreads hup).2.1 htold, hd, Option.map_some, hwas]
  rfl

/-- A caller brings the link up again before the receive task has noticed its loss: then the receive task
reads from a link that is up, nothing else can go on, and the last notice is that the link is lost. -/
theorem last_notice_lost_while_up :
    let c₀ := new .default ⟨none, none, none, none⟩ (.new false false false)
    let actions : List ClientAction :=
      [.call .start] ++ .replicate 2 (.go ⟨0, 0⟩ .own) ++ .replicate 5 (.go ⟨1, 0⟩ .own) ++
        [.go ⟨2, 0⟩ .own, .lose, .call .connect] ++ .replicate 5 (.go ⟨3, 0⟩ .own) ++
          .replicate 5 (.go ⟨1, 0⟩ .own)
    ∃ c, c₀.performAll? actions = some c ∧ c.closed = false ∧ c.ready = [] ∧
      c.tasks[1]? = some (.receive (.reading c.link.number)) ∧ c.link.up = true ∧
      lastLinkNotice c.effects = some .disconnected := by
  intro c₀ actions
  have hrun : (c₀.performAll? actions).any fun c => c.closed = false ∧ c.ready = [] ∧
      c.tasks[1]? = some (.receive (.reading c.link.number)) ∧ c.link.up = true ∧
      lastLinkNotice c.effects = some .disconnected := by
    decide +kernel
  obtain ⟨c, hc, hend⟩ := (Option.any_eq_true _ _).mp hrun
  exact ⟨c, hc, of_decide_eq_true hend⟩

end Client

end AlarmPanel
