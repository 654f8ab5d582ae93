import Mathlib.Data.List.Nodup
import AlarmPanel.Proofs.Client.Roles

/-!
# Slots and the table of open requests

A slot that is on the table of open requests is empty, and the table leads from each code to one slot and to
each slot from one code. Whoever has a slot for the answers to a request finds the slot open under that code
until the first such answer is taken in, and finds that answer in it from then on: no later answer, and no
answer to another request, ever comes into it.
-/

namespace AlarmPanel

namespace Client

/-- The first answer to a request among the updates that have been taken in after so many others. -/
def answerSince? (code : UInt8) (seen : Nat) (c : Client) : Option StatusUpdate :=
  (c.updates.drop seen).find? fun update => update.request.code = code

/-- The table leads to empty slots, and no two of its entries share a code or a slot. -/
structure TableSound (c : Client) : Prop where
  empty : ∀ entry ∈ c.openSlots, c.slots[entry.2]? = some none
  codes : (c.openSlots.map Prod.fst).Nodup
  slots : (c.openSlots.map Prod.snd).Nodup

/-- The slot is for the first answer to the request after so many updates: it is open until that answer has
been taken in, and has that answer in it from then on. -/
def Awaits (code : UInt8) (seen slot : Nat) (c : Client) : Prop :=
  match c.answerSince? code seen with
  | none => (code, slot) ∈ c.openSlots
  | some update => c.slots[slot]? = some (some update)

/-- What a step does to the slots, the table and the record of updates. -/
inductive TableStep (c d : Client) : Prop
  | same (hslots : d.slots = c.slots) (hopen : d.openSlots = c.openSlots)
      (hupdates : d.updates = c.updates)
  /-- An update is taken in. -/
  | takeIn (update : StatusUpdate) (hslots : d.slots = (c.fillSlot update).slots)
      (hopen : d.openSlots = (c.fillSlot update).openSlots)
      (hupdates : d.updates = c.updates ++ [update])
  /-- A request registers. -/
  | register (code : UInt8) (hslots : d.slots = (c.shareSlot code).1.slots)
      (hopen : d.openSlots = (c.shareSlot code).1.openSlots) (hupdates : d.updates = c.updates)

variable {c d e : Client} {code : UInt8} {seen slot : Nat} {update : StatusUpdate}

/-! ## The table -/

theorem mem_of_openSlot? (h : c.openSlot? code = some slot) : (code, slot) ∈ c.openSlots := by
  obtain ⟨before, after, heq, -⟩ := List.lookup_eq_some_iff.mp h
  rw [heq]
  exact List.mem_append_right _ List.mem_cons_self

theorem not_mem_of_openSlot? (h : c.openSlot? code = none) (slot : Nat) : (code, slot) ∉ c.openSlots := by
  intro hmem
  have hne := List.lookup_eq_none_iff.mp h _ hmem
  simp at hne

theorem TableSound.one_slot (hsound : c.TableSound) {slot' : Nat} (h : (code, slot) ∈ c.openSlots)
    (h' : (code, slot') ∈ c.openSlots) : slot = slot' :=
  congrArg Prod.snd (List.inj_on_of_nodup_map hsound.codes h h' rfl)

theorem TableSound.one_code (hsound : c.TableSound) {code' : UInt8} (h : (code, slot) ∈ c.openSlots)
    (h' : (code', slot) ∈ c.openSlots) : code = code' :=
  congrArg Prod.fst (List.inj_on_of_nodup_map hsound.slots h h' rfl)

theorem TableSound.lt_length (hsound : c.TableSound) {entry : UInt8 × Nat} (h : entry ∈ c.openSlots) :
    entry.2 < c.slots.length :=
  (List.getElem?_eq_some_iff.mp (hsound.empty entry h)).1

theorem TableSound.openSlot?_eq (hsound : c.TableSound) (h : (code, slot) ∈ c.openSlots) :
    c.openSlot? code = some slot := by
  cases hopen : c.openSlot? code with
  | none => exact absurd h (not_mem_of_openSlot? hopen slot)
  | some other => rw [hsound.one_slot (mem_of_openSlot? hopen) h]

theorem TableSound.openSlot?_eq_some_iff (hsound : c.TableSound) :
    c.openSlot? code = some slot ↔ (code, slot) ∈ c.openSlots :=
  ⟨mem_of_openSlot?, hsound.openSlot?_eq⟩

/-- A shared slot is the open one, and without one a new one is opened. -/
theorem TableSound.shareSlot_cases (hsound : c.TableSound) (code : UInt8) :
    (∃ slot, (code, slot) ∈ c.openSlots ∧ c.shareSlot code = (c, slot)) ∨
      (c.openSlot? code = none ∧ c.shareSlot code
        = ({ c with
              slots := c.slots ++ [none]
              openSlots := (code, c.slots.length) :: c.openSlots.filter (·.1 ≠ code) },
            c.slots.length)) := by
  unfold shareSlot
  cases h : c.openSlot? code with
  | none => exact .inr ⟨rfl, rfl⟩
  | some slot =>
    have hmem := mem_of_openSlot? h
    exact .inl ⟨slot, hmem, if_pos (hsound.empty (code, slot) hmem)⟩

theorem mem_filter_code {entry : UInt8 × Nat} {code : UInt8} :
    entry ∈ c.openSlots.filter (·.1 ≠ code) ↔ entry ∈ c.openSlots ∧ entry.1 ≠ code := by
  rw [List.mem_filter, decide_eq_true_eq]

theorem nodup_map_filter {α : Type} {f : UInt8 × Nat → α} {p : UInt8 × Nat → Bool}
    (h : (c.openSlots.map f).Nodup) : ((c.openSlots.filter p).map f).Nodup :=
  h.sublist (List.filter_sublist.map f)

theorem TableSound.fillSlot (hsound : c.TableSound) (update : StatusUpdate) :
    (c.fillSlot update).TableSound := by
  cases h : c.openSlot? update.request.code with
  | none => rwa [fillSlot_of_not_open h]
  | some filled =>
    rw [fillSlot_of_open h]
    refine ⟨fun entry hmem => ?_, nodup_map_filter hsound.codes, nodup_map_filter hsound.slots⟩
    obtain ⟨hold, hne⟩ := mem_filter_code.mp hmem
    -- The entry of the filled slot has been taken off, and it was the only one that led there.
    have hslot : filled ≠ entry.2 := by
      intro heq
      exact hne (hsound.one_code hold (heq ▸ mem_of_openSlot? h))
    show (c.slots.set filled _)[entry.2]? = some none
    rw [List.getElem?_set_ne hslot]
    exact hsound.empty entry hold

theorem TableSound.shareSlot (hsound : c.TableSound) (code : UInt8) :
    (c.shareSlot code).1.TableSound := by
  rcases hsound.shareSlot_cases code with ⟨slot, -, heq⟩ | ⟨-, heq⟩
  · rw [heq]
    exact hsound
  · rw [heq]
    refine ⟨fun entry hmem => ?_, ?_, ?_⟩
    · show (c.slots ++ [none])[entry.2]? = some none
      rcases List.mem_cons.mp hmem with rfl | hold
      · exact List.getElem?_concat_length
      · have hentry := (mem_filter_code.mp hold).1
        rw [List.getElem?_append_left (hsound.lt_length hentry)]
        exact hsound.empty entry hentry
    · refine List.nodup_cons.mpr ⟨fun hmem => ?_, nodup_map_filter hsound.codes⟩
      obtain ⟨entry, hentry, hcode⟩ := List.mem_map.mp hmem
      exact (mem_filter_code.mp hentry).2 hcode
    · -- The new slot lies behind all others, so no other entry leads to it.
      refine List.nodup_cons.mpr ⟨fun hmem => ?_, nodup_map_filter hsound.slots⟩
      obtain ⟨entry, hentry, hslot⟩ := List.mem_map.mp hmem
      exact Nat.ne_of_lt (hsound.lt_length (mem_filter_code.mp hentry).1) hslot

theorem TableSound.of_eq (hsound : c.TableSound) (hslots : d.slots = c.slots)
    (hopen : d.openSlots = c.openSlots) : d.TableSound where
  empty := by rw [hslots, hopen]; exact hsound.empty
  codes := by rw [hopen]; exact hsound.codes
  slots := by rw [hopen]; exact hsound.slots

/-- No step unsettles the table. -/
theorem TableStep.sound (h : TableStep c d) (hsound : c.TableSound) : d.TableSound := by
  cases h with
  | same hslots hopen _ => exact hsound.of_eq hslots hopen
  | takeIn update hslots hopen _ => exact (hsound.fillSlot update).of_eq hslots hopen
  | register code hslots hopen _ => exact (hsound.shareSlot code).of_eq hslots hopen

/-! ## A slot and its answer -/

/-- The updates that have been taken in stay on record. -/
theorem TableStep.updates_prefix (h : TableStep c d) : c.updates <+: d.updates := by
  cases h with
  | same _ _ hupdates => exact hupdates ▸ List.prefix_rfl
  | takeIn update _ _ hupdates => exact hupdates ▸ List.prefix_append _ _
  | register _ _ _ hupdates => exact hupdates ▸ List.prefix_rfl

theorem answerSince?_of_updates_eq (h : d.updates = c.updates) :
    d.answerSince? code seen = c.answerSince? code seen := by
  rw [answerSince?, answerSince?, h]

/-- An update that is taken in is the first answer if it is an answer and there has been none before. -/
theorem answerSince?_of_append (code : UInt8) (hseen : seen ≤ c.updates.length)
    (h : d.updates = c.updates ++ [update]) :
    d.answerSince? code seen
      = (c.answerSince? code seen).or (if update.request.code = code then some update else none) := by
  rw [answerSince?, h, List.drop_append_of_le_length hseen, List.find?_append]
  congr 1
  by_cases hcode : update.request.code = code <;> simp [hcode]

theorem awaits_iff_of_eq (hslots : d.slots = c.slots) (hopen : d.openSlots = c.openSlots)
    (hupdates : d.updates = c.updates) : d.Awaits code seen slot ↔ c.Awaits code seen slot := by
  rw [Awaits, Awaits, answerSince?_of_updates_eq hupdates, hslots, hopen]

/-- An update that does not answer a request leaves its entry on the table. -/
theorem mem_openSlots_fillSlot (h : (code, slot) ∈ c.openSlots) (hcode : update.request.code ≠ code) :
    (code, slot) ∈ (c.fillSlot update).openSlots := by
  cases hopen : c.openSlot? update.request.code with
  | none => rwa [fillSlot_of_not_open hopen]
  | some filled =>
    rw [fillSlot_of_open hopen]
    exact mem_filter_code.mpr ⟨h, hcode.symm⟩

/-- The answer to an open request comes into its slot. -/
theorem slots_fillSlot_of_mem (hsound : c.TableSound) (h : (update.request.code, slot) ∈ c.openSlots) :
    (c.fillSlot update).slots[slot]? = some (some update) := by
  rw [fillSlot_of_open (hsound.openSlot?_eq h)]
  exact List.getElem?_set_self (hsound.lt_length h)

/-- A slot with an update in it is not filled again. -/
theorem slots_fillSlot_of_filled (hsound : c.TableSound) {filling : StatusUpdate}
    (h : c.slots[slot]? = some (some update)) :
    (c.fillSlot filling).slots[slot]? = some (some update) := by
  cases hopen : c.openSlot? filling.request.code with
  | none => rwa [fillSlot_of_not_open hopen]
  | some filled =>
    -- What is filled is open and so empty, hence another slot.
    have hempty := hsound.empty _ (mem_of_openSlot? hopen)
    have hne : filled ≠ slot := by
      rintro rfl
      rw [h] at hempty
      cases hempty
    rw [fillSlot_of_open hopen]
    show (c.slots.set filled _)[slot]? = _
    rwa [List.getElem?_set_ne hne]

/-- While an update is taken in, the slot goes on to wait for its answer, or it gets it, or it has it. -/
theorem Awaits.fillSlot (h : c.Awaits code seen slot) (hsound : c.TableSound)
    (hseen : seen ≤ c.updates.length) (hslots : d.slots = (c.fillSlot update).slots)
    (hopen : d.openSlots = (c.fillSlot update).openSlots)
    (hupdates : d.updates = c.updates ++ [update]) : d.Awaits code seen slot := by
  have hanswer := answerSince?_of_append code hseen hupdates
  unfold Awaits at h ⊢
  cases hbefore : c.answerSince? code seen with
  | some answer =>
    rw [hbefore, Option.some_or] at hanswer
    rw [hbefore] at h
    rw [hanswer, hslots]
    exact slots_fillSlot_of_filled hsound h
  | none =>
    rw [hbefore, Option.none_or] at hanswer
    rw [hbefore] at h
    by_cases hcode : update.request.code = code
    · subst hcode
      rw [hanswer, if_pos rfl, hslots]
      exact slots_fillSlot_of_mem hsound h
    · rw [hanswer, if_neg hcode, hopen]
      exact mem_openSlots_fillSlot h hcode

/-- Another registration leaves the slot alone. -/
theorem Awaits.shareSlot (h : c.Awaits code seen slot) (hsound : c.TableSound) {other : UInt8}
    (hslots : d.slots = (c.shareSlot other).1.slots)
    (hopen : d.openSlots = (c.shareSlot other).1.openSlots) (hupdates : d.updates = c.updates) :
    d.Awaits code seen slot := by
  rcases hsound.shareSlot_cases other with ⟨shared, -, heq⟩ | ⟨hnone, heq⟩
  · rw [heq] at hslots hopen
    exact (awaits_iff_of_eq hslots hopen hupdates).mpr h
  · rw [heq] at hslots hopen
    unfold Awaits at h ⊢
    rw [answerSince?_of_updates_eq hupdates]
    cases hanswer : c.answerSince? code seen with
    | some answer =>
      rw [hanswer] at h
      show d.slots[slot]? = some (some answer)
      rw [hslots, List.getElem?_append_left (List.getElem?_eq_some_iff.mp h).1]
      exact h
    | none =>
      rw [hanswer] at h
      -- Since no slot was open under the other code, it is not this one.
      have hne : code ≠ other := by
        rintro rfl
        exact not_mem_of_openSlot? hnone slot h
      show (code, slot) ∈ d.openSlots
      rw [hopen]
      exact List.mem_cons_of_mem _ (mem_filter_code.mpr ⟨h, hne⟩)

/-- Whatever happens, the slot is for the same answer. -/
theorem TableStep.awaits (hstep : TableStep c d) (hsound : c.TableSound) (hseen : seen ≤ c.updates.length)
    (h : c.Awaits code seen slot) : d.Awaits code seen slot := by
  cases hstep with
  | same hslots hopen hupdates => exact (awaits_iff_of_eq hslots hopen hupdates).mpr h
  | takeIn update hslots hopen hupdates => exact h.fillSlot hsound hseen hslots hopen hupdates
  | register other hslots hopen hupdates => exact h.shareSlot hsound hslots hopen hupdates

theorem updates_shareSlot (code : UInt8) (c : Client) : (c.shareSlot code).1.updates = c.updates :=
  congrArg Ledger.updates (ledger_shareSlot code c)

theorem TableSound.mem_shareSlot (hsound : c.TableSound) (code : UInt8) :
    (code, (c.shareSlot code).2) ∈ (c.shareSlot code).1.openSlots := by
  rcases hsound.shareSlot_cases code with ⟨slot, hmem, heq⟩ | ⟨-, heq⟩
  · rw [heq]
    exact hmem
  · rw [heq]
    exact List.mem_cons_self

/-- A request that registers gets a slot for the first answer from then on. -/
theorem awaits_shareSlot (hsound : c.TableSound) (code : UInt8) :
    (c.shareSlot code).1.Awaits code c.updates.length (c.shareSlot code).2 := by
  have hnone : (c.shareSlot code).1.answerSince? code c.updates.length = none := by
    rw [answerSince?, updates_shareSlot, List.drop_length]
    rfl
  unfold Awaits
  rw [hnone]
  exact hsound.mem_shareSlot code

/-! ## Waiting for a slot -/

/-- A call that waits gets the first answer once it is there, and before that nothing but a timeout: its
slot is never empty and off the table. -/
theorem awaitStep?_of_awaits {task slot seen deadline : Nat} {call : Call} {command : String}
    {code : UInt8} {c : Client} (h : c.Awaits code seen slot) (hsound : c.TableSound) :
    c.awaitStep? task call slot command deadline
      = match c.answerSince? code seen with
        | some update => some (c.answerCall task call (answerOf call update))
        | none =>
          if deadline ≤ c.now then
            some (c.answerCall task call (.failed (.commandTimeout command)))
          else none := by
  unfold Awaits at h
  cases hanswer : c.answerSince? code seen with
  | some update =>
    rw [hanswer] at h
    have hslot : c.slots[slot]? = some (some update) := h
    simp only [awaitStep?, hslot]
  | none =>
    rw [hanswer] at h
    have hmem : (code, slot) ∈ c.openSlots := h
    have hslot : c.slots[slot]? = some none := hsound.empty _ hmem
    have hall : ¬ (c.openSlots.all fun entry => decide (entry.2 ≠ slot)) = true := by
      intro hall
      have hne := List.all_eq_true.mp hall _ hmem
      simp at hne
    simp only [awaitStep?, hslot, if_neg hall]

/-! ## Steps and histories -/

theorem TableStep.congr (h : TableStep c e) (hslots : d.slots = e.slots)
    (hopen : d.openSlots = e.openSlots) (hupdates : d.updates = e.updates) : TableStep c d := by
  cases h with
  | same h₁ h₂ h₃ => exact .same (hslots.trans h₁) (hopen.trans h₂) (hupdates.trans h₃)
  | takeIn update h₁ h₂ h₃ =>
    exact .takeIn update (hslots.trans h₁) (hopen.trans h₂) (hupdates.trans h₃)
  | register code h₁ h₂ h₃ =>
    exact .register code (hslots.trans h₁) (hopen.trans h₂) (hupdates.trans h₃)

theorem tableStep_receiveLine (bytes : List UInt8) (c : Client) : TableStep c (c.receiveLine bytes) := by
  have hledger := ledger_receiveLine bytes c
  cases h : (eventOfBytes? bytes).bind Event.status? with
  | some update =>
    simp only [h] at hledger
    exact .takeIn update (congrArg Ledger.slots hledger) (congrArg Ledger.openSlots hledger)
      (congrArg Ledger.updates hledger)
  | none =>
    simp only [h] at hledger
    exact .same (congrArg Ledger.slots hledger) (congrArg Ledger.openSlots hledger)
      (congrArg Ledger.updates hledger)

theorem Deed.tableStep {was now : Task} (h : Deed c was now e) : TableStep c e := by
  cases h with
  | takeIn place bytes => exact tableStep_receiveLine bytes c
  | @register command code call patience line hcode =>
    exact .register code rfl rfl (updates_shareSlot code c)
  | abort other =>
    rcases c.abort_eq other with heq | ⟨role, -, heq⟩ <;> rw [heq] <;> exact .same rfl rfl rfl
  | nothing | launch | keep | take => exact .same rfl rfl rfl

theorem tableStep_perform? {action : ClientAction} (h : c.perform? action = some d) : TableStep c d := by
  rcases perform?_cases h with ⟨strand, turn, -, hgo⟩ | ⟨call, rfl⟩ | hledger
  · obtain ⟨was, -, -, now, e, hdeed, -, hd⟩ := stride_of_go? hgo
    exact hdeed.tableStep.congr (congrArg Ledger.slots hd) (congrArg Ledger.openSlots hd)
      (congrArg Ledger.updates hd)
  · exact .same rfl rfl rfl
  · exact .same (congrArg Ledger.slots hledger) (congrArg Ledger.openSlots hledger)
      (congrArg Ledger.updates hledger)

theorem tableSound_new (settings : ClientSettings) (handlers : Handlers) (link : Link) :
    (new settings handlers link).TableSound where
  empty _ hmem := by cases hmem
  codes := List.nodup_nil
  slots := List.nodup_nil

/-- What holds of a client after every history. -/
structure Sound (c : Client) : Prop where
  handles : c.HandlesKnown
  table : c.TableSound

theorem sound_new (settings : ClientSettings) (handlers : Handlers) (link : Link) :
    (new settings handlers link).Sound :=
  ⟨handlesKnown_new settings handlers link, tableSound_new settings handlers link⟩

theorem Sound.perform? {action : ClientAction} {c d : Client} (hsound : c.Sound)
    (h : c.perform? action = some d) : d.Sound :=
  ⟨handlesKnown_perform? h hsound.handles, (tableStep_perform? h).sound hsound.table⟩

theorem Sound.performAll? {actions : List ClientAction} {c d : Client} (hsound : c.Sound)
    (h : c.performAll? actions = some d) : d.Sound :=
  performAll?_induction (fun _ _ _ hsound hstep => hsound.perform? hstep) h hsound

end Client

end AlarmPanel
