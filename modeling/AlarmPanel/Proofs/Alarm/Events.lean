import AlarmPanel.Alarm
import AlarmPanel.Proofs.Payload.Flags

/-!
# What events tell an alarm

An event may tell the arming state, the mode and some zones. What it tells of a zone is read off the event
alone (`EventBody.tells?`), and an alarm takes it over whatever else it knows (`Alarm.zone?_handle`). The
events that leave the state and the mode alone keep the alarm's `Alarm.stance`.
-/

namespace AlarmPanel

/-- The zone of a bank that has the number, if there is one. -/
def ZoneBank.zoneAt? (bank : ZoneBank) (number : Nat) : Option BankZone :=
  BankZone.ofNumber? (number + 1 - bank.firstZone)

theorem ZoneBank.zoneAt?_eq_some_iff {bank : ZoneBank} {number : Nat} {z : BankZone} :
    bank.zoneAt? number = some z ↔ z.number + bank.firstZone - 1 = number := by
  obtain ⟨⟨place, hplace⟩⟩ := z
  have hfirst : bank.firstZone = 1 ∨ bank.firstZone = 17 := by cases bank <;> simp [firstZone]
  simp only [zoneAt?, BankZone.ofNumber?, BankZone.number]
  split
  next hnumber =>
    simp only [Option.some.injEq, BankZone.mk.injEq, Fin.mk.injEq]
    omega
  next hnumber =>
    refine ⟨by simp, fun h => absurd h ?_⟩
    omega

/-- What an event tells of a zone. -/
def EventBody.tells? (number : Nat) : EventBody → Option Bool
  | .system e =>
    if e.type = .unsealed ∧ e.zone.toNat = number then some true
    else if e.type = .sealed ∧ e.zone.toNat = number then some false
    else none
  | .status (.zone bank .inputUnsealed zones) => (bank.zoneAt? number).map zones.has
  | .status _ => none

namespace Alarm

variable {a : Alarm}

/-- The alarm after the events. -/
def after (events : List Event) (a : Alarm) : Alarm := events.foldl (fun a e => (a.handle e).1) a

theorem after_append (es fs : List Event) (a : Alarm) : a.after (es ++ fs) = (a.after es).after fs :=
  List.foldl_append

/-- The state, the mode and whether an empty status leaves the state as it is. -/
def stance (a : Alarm) : Bool × ArmingState × Option ArmingMode := (a.inferArming, a.state, a.mode)

/-! ## Single values -/

theorem setState_fst (state : ArmingState) (a : Alarm) : (a.setState state).1 = { a with state } := by
  unfold setState
  split
  next h => rw [← h]
  next => rfl

theorem stance_setZone (number : Nat) (triggered : Bool) (a : Alarm) :
    (a.setZone number triggered).1.stance = a.stance := by
  unfold setZone
  split
  next => split <;> rfl
  next => rfl

theorem setAuxOutput_fst (output : AuxOutput) (active : Bool) (a : Alarm) :
    (a.setAuxOutput output active).1 =
      { a with auxOutputs := (a.setAuxOutput output active).1.auxOutputs } := by
  unfold setAuxOutput
  split <;> rfl

/-- A zone is known as it was recorded last. -/
theorem zone?_setZone (number m : Nat) (triggered : Bool) (a : Alarm) :
    (a.setZone m triggered).1.zone? number =
      if m = number then (a.zone? number).map fun _ => some triggered else a.zone? number := by
  unfold setZone
  split
  next hm =>
    have hset : (if a.zones[m - 1] = some triggered then ((a, []) : Updated)
        else ({ a with zones := a.zones.set (m - 1) (some triggered) }, [.zone m triggered])).1 =
          { a with zones := a.zones.set (m - 1) (some triggered) } := by
      split
      next h => rw [← h, Vector.set_getElem_self]
      next => rfl
    rw [hset]
    simp only [zone?]
    split
    next hnumber =>
      by_cases hsame : m = number
      · subst hsame
        simp
      · rw [if_neg hsame, Vector.getElem_set_ne _ _ (by omega)]
    next => simp
  next hm =>
    by_cases hsame : m = number
    · subst hsame
      simp [zone?, hm]
    · rw [if_neg hsame]

/-! ## Words -/

theorem forEach_fst {α : Type} (entries : List α) (record : α → Alarm → Updated) (a : Alarm) :
    (a.forEach entries record).1 = entries.foldl (fun a e => (record e a).1) a := by
  have hfold (u : Updated) : (entries.foldl (fun u e => u.andThen (record e)) u).1 =
      entries.foldl (fun a e => (record e a).1) u.1 := by
    induction entries generalizing u with
    | nil => rfl
    | cons e entries ih => exact ih _
  exact hfold (a, [])

/-- What every entry leaves alone, all of them leave alone. -/
theorem forEach_preserves {α β : Type} (view : Alarm → β) (entries : List α)
    {record : α → Alarm → Updated} (h : ∀ e a, view (record e a).1 = view a) (a : Alarm) :
    view (a.forEach entries record).1 = view a := by
  rw [forEach_fst]
  induction entries generalizing a with
  | nil => rfl
  | cons e entries ih =>
    rw [List.foldl_cons, ih, h]

theorem stance_handleZones (bank : ZoneBank) (zones : FlagSet BankZone) (a : Alarm) :
    (a.handleZones bank zones).1.stance = a.stance :=
  forEach_preserves stance _ (fun _ _ => stance_setZone ..) a

theorem stance_handleAuxOutputs (flags : FlagSet AuxOutput) (a : Alarm) :
    (a.handleAuxOutputs flags).1.stance = a.stance := by
  refine forEach_preserves stance _ (fun output a => ?_) a
  rw [setAuxOutput_fst]
  rfl

/-- Entries of a bank's word are recorded at the zones of the bank. -/
theorem zone?_foldl_setZone (number : Nat) (bank : ZoneBank) (word : FlagSet BankZone)
    (zones : List BankZone) (a : Alarm) :
    (zones.foldl (fun a z => (a.setZone (z.number + bank.firstZone - 1) (word.has z)).1) a).zone? number =
      match bank.zoneAt? number with
      | some z => if z ∈ zones then (a.zone? number).map fun _ => some (word.has z) else a.zone? number
      | none => a.zone? number := by
  induction zones generalizing a with
  | nil => cases bank.zoneAt? number <;> simp
  | cons y zones ih =>
    rw [List.foldl_cons, ih, zone?_setZone]
    by_cases hy : y.number + bank.firstZone - 1 = number
    · rw [ZoneBank.zoneAt?_eq_some_iff.mpr hy, if_pos hy]
      by_cases hmem : y ∈ zones <;> simp [hmem, Function.comp_def]
    · rw [if_neg hy]
      cases hz : bank.zoneAt? number with
      | none => rfl
      | some z =>
        have hne : z ≠ y := by
          rintro rfl
          exact hy (ZoneBank.zoneAt?_eq_some_iff.mp hz)
        simp [hne]

/-! ## Events -/

theorem zone?_congr {a b : Alarm} (h : b.zones = a.zones) (number : Nat) :
    b.zone? number = a.zone? number := by
  simp only [zone?, h]

theorem handleSystem_unsealed {e : SystemEvent} (h : e.type = .unsealed) (a : Alarm) :
    a.handleSystem e = a.setZone e.zone.toNat true := by
  unfold handleSystem
  rw [h]

theorem handleSystem_sealed {e : SystemEvent} (h : e.type = .sealed) (a : Alarm) :
    a.handleSystem e = a.setZone e.zone.toNat false := by
  unfold handleSystem
  rw [h]

/-- An event that is not about a zone tells the state and the mode at most. -/
theorem handleSystem_fst {e : SystemEvent} (hunsealed : e.type ≠ .unsealed) (hsealed : e.type ≠ .sealed)
    (a : Alarm) :
    (a.handleSystem e).1 =
      { a with state := (a.handleSystem e).1.state, mode := (a.handleSystem e).1.mode } := by
  have hstate (state : ArmingState) (mode : Option ArmingMode) :
      ({ a with mode }.setState state).1 =
        { a with
          state := ({ a with mode }.setState state).1.state
          mode := ({ a with mode }.setState state).1.mode } := by
    rw [setState_fst]
  unfold handleSystem
  split
  next h => exact absurd h hunsealed
  next h => exact absurd h hsealed
  next => exact hstate _ a.mode
  next =>
    split
    next => rfl
    next => exact hstate _ a.mode
  next => exact hstate _ a.mode
  next => exact hstate _ a.mode
  next =>
    split
    next => exact hstate _ a.mode
    next => rfl
  all_goals first | exact hstate _ _ | rfl

theorem handleArming_fst (status : FlagSet ArmingFlag) (a : Alarm) :
    (a.handleArming status).1 = { a with state := (a.handleArming status).1.state } := by
  unfold handleArming
  split
  next => rw [setState_fst]
  next =>
    split
    next => rw [setState_fst]
    next =>
      split
      next => rw [setState_fst]
      next => rfl

/-- What a word of a bank's unsealed inputs says of a zone. -/
theorem zone?_handleZones (number : Nat) (bank : ZoneBank) (word : FlagSet BankZone) (a : Alarm) :
    (a.handleZones bank word).1.zone? number =
      match (bank.zoneAt? number).map word.has with
      | some triggered => (a.zone? number).map fun _ => some triggered
      | none => a.zone? number := by
  rw [handleZones, forEach_fst, zone?_foldl_setZone]
  cases bank.zoneAt? number with
  | none => rfl
  | some z => simp [BankZone.mem_all]

/-- An alarm takes over what an event tells of a zone, and keeps what it knows of the others. -/
theorem zone?_handle (number : Nat) (event : Event) (a : Alarm) :
    (a.handle event).1.zone? number =
      match event.body.tells? number with
      | some triggered => (a.zone? number).map fun _ => some triggered
      | none => a.zone? number := by
  obtain ⟨address, timestamp, body⟩ := event
  cases body with
  | system e =>
    simp only [handle, EventBody.tells?]
    by_cases hunsealed : e.type = .unsealed
    · rw [handleSystem_unsealed hunsealed, zone?_setZone]
      by_cases hzone : e.zone.toNat = number <;> simp [hunsealed, hzone]
    · by_cases hsealed : e.type = .sealed
      · rw [handleSystem_sealed hsealed, zone?_setZone]
        by_cases hzone : e.zone.toNat = number <;> simp [hsealed, hzone]
      · have hzones : (a.handleSystem e).1.zones = a.zones := by
          rw [handleSystem_fst hunsealed hsealed]
        rw [zone?_congr hzones]
        simp [hunsealed, hsealed]
  | status update =>
    simp only [handle]
    unfold handleStatus
    split
    next status => exact zone?_congr (by rw [handleArming_fst]) number
    next bank word => exact zone?_handleZones number bank word a
    next model major minor =>
      split
      next => exact zone?_congr rfl number
      next => rfl
    next flags =>
      refine zone?_congr (forEach_preserves zones _ (fun output a => ?_) a) number
      rw [setAuxOutput_fst]
    next bank condition word hcondition =>
      unfold EventBody.tells?
      split <;> simp_all
    all_goals rfl

theorem inferArming_of_stance {a b : Alarm} (h : b.stance = a.stance) : b.inferArming = a.inferArming :=
  congrArg Prod.fst h

theorem inferArming_handle (event : Event) (a : Alarm) :
    (a.handle event).1.inferArming = a.inferArming := by
  obtain ⟨address, timestamp, body⟩ := event
  cases body with
  | system e =>
    simp only [handle]
    by_cases hunsealed : e.type = .unsealed
    · rw [handleSystem_unsealed hunsealed]
      exact inferArming_of_stance (stance_setZone ..)
    · by_cases hsealed : e.type = .sealed
      · rw [handleSystem_sealed hsealed]
        exact inferArming_of_stance (stance_setZone ..)
      · rw [handleSystem_fst hunsealed hsealed]
  | status update =>
    simp only [handle]
    unfold handleStatus
    split
    next => rw [handleArming_fst]
    next => exact inferArming_of_stance (stance_handleZones ..)
    next => split <;> rfl
    next => exact inferArming_of_stance (stance_handleAuxOutputs ..)
    all_goals rfl

/-- Whether the state is inferred is settled from the beginning. -/
theorem inferArming_after (events : List Event) (a : Alarm) :
    (a.after events).inferArming = a.inferArming := by
  induction events generalizing a with
  | nil => rfl
  | cons event events ih => exact (ih _).trans (inferArming_handle event a)

end Alarm

end AlarmPanel
