import AlarmPanel.Proofs.Alarm.Parts
import AlarmPanel.Proofs.Panel.Lockstep

/-!
# Snapshots of the zones

A panel that is asked for its zones answers with one word for each bank of sixteen. The panel finds a zone by its
place among all zones, the word by its bit, the update by its number in the bank and the alarm by its number on the
panel. All four count alike: an alarm that takes in both answers knows every zone as it is, and the numbers that the
answers list are those of the unsealed zones in order (`SimulatedPanel.zoneSnapshot`).
-/

namespace AlarmPanel

namespace ZoneBank

variable {bank : ZoneBank} {word : FlagSet BankZone} {number : Nat}

/-- The numbers of the bank's zones. -/
def numbers (bank : ZoneBank) : List Nat := List.range' bank.firstZone 16

theorem numbers_lower_append_upper : lower.numbers ++ upper.numbers = List.range' 1 zoneCount := rfl

theorem numbers_eq_map (bank : ZoneBank) :
    bank.numbers = (Flag.all : List BankZone).map fun z => z.number + bank.firstZone - 1 := by
  cases bank <;> rfl

theorem mem_numbers_iff : number ∈ bank.numbers ↔ bank.firstZone ≤ number ∧ number < bank.firstZone + 16 :=
  List.mem_range'_1

/-- A bank has the zones that it numbers. -/
theorem zoneAt?_isSome_iff : (bank.zoneAt? number).isSome = true ↔ number ∈ bank.numbers := by
  simp only [Option.isSome_iff_exists, zoneAt?_eq_some_iff, numbers_eq_map, List.mem_map]
  exact ⟨fun ⟨z, hz⟩ => ⟨z, BankZone.mem_all z, hz⟩, fun ⟨z, _, hz⟩ => ⟨z, hz⟩⟩

/-- The numbers that a word lists are those of the bank's numbers whose zones it has. -/
theorem zoneNumbers_eq_filter (bank : ZoneBank) (word : FlagSet BankZone) :
    bank.zoneNumbers word = bank.numbers.filter fun number => (bank.zoneAt? number).any word.has := by
  have hzone (z : BankZone) : bank.zoneAt? (z.number + bank.firstZone - 1) = some z := zoneAt?_eq_some_iff.mpr rfl
  rw [numbers_eq_map, List.filter_map, zoneNumbers, FlagSet.toList]
  simp only [Function.comp_def, hzone, Option.any_some]

end ZoneBank

/-! ## What an alarm knows of a bank -/

namespace Alarm

variable {event : Event} {bank : ZoneBank} {condition : ZoneCondition} {word : FlagSet BankZone} {number : Nat}

theorem exists_zone?_of_mem (hnumber : number ∈ bank.numbers) (a : Alarm) : ∃ known, a.zone? number = some known := by
  have hbounds := ZoneBank.mem_numbers_iff.mp hnumber
  refine ⟨_, dif_pos ?_⟩
  cases bank <;> simp only [ZoneBank.firstZone] at hbounds <;> unfold zoneCount <;> omega

/-- After a word of unsealed inputs the zones of its bank are known as the word has them. -/
theorem zone?_handle_of_mem (h : event.body = .status (.zone bank .inputUnsealed word))
    (hnumber : number ∈ bank.numbers) (a : Alarm) :
    (a.handle event).1.zone? number = some (some ((bank.zoneAt? number).any word.has)) := by
  obtain ⟨z, hz⟩ := Option.isSome_iff_exists.mp (ZoneBank.zoneAt?_isSome_iff.mpr hnumber)
  obtain ⟨known, hknown⟩ := exists_zone?_of_mem hnumber a
  rw [zone?_handle, h, EventBody.tells?, hz, hknown]
  rfl

/-- It tells nothing of the other zones. -/
theorem zone?_handle_of_not_mem (h : event.body = .status (.zone bank .inputUnsealed word))
    (hnumber : number ∉ bank.numbers) (a : Alarm) : (a.handle event).1.zone? number = a.zone? number := by
  have hnone : bank.zoneAt? number = none :=
    Option.not_isSome_iff_eq_none.mp (mt ZoneBank.zoneAt?_isSome_iff.mp hnumber)
  rw [zone?_handle, h, EventBody.tells?, hnone]
  rfl

theorem handle_zone_fst (h : event.body = .status (.zone bank .inputUnsealed word)) (a : Alarm) :
    (a.handle event).1 = { a with zones := (a.handle event).1.zones } := by
  have hevent : a.handle event = a.handleZones bank word := by
    rw [handle, h]
    rfl
  have hstance := stance_handleZones bank word a
  have hequipment := equipment_handleZones bank word a
  rw [hevent]
  generalize (a.handleZones bank word).1 = b at hstance hequipment
  simp only [stance, equipment, Prod.mk.injEq] at hstance hequipment
  obtain ⟨hinfer, hstate, hmode⟩ := hstance
  obtain ⟨houtputs, hpanel⟩ := hequipment
  rw [← hinfer, ← hstate, ← hmode, ← houtputs, ← hpanel]

theorem after_zone_fst {first second : Event} {bank bank' : ZoneBank} {word word' : FlagSet BankZone}
    (hfirst : first.body = .status (.zone bank .inputUnsealed word))
    (hsecond : second.body = .status (.zone bank' .inputUnsealed word')) (a : Alarm) :
    a.after [first, second] = { a with zones := (a.after [first, second]).zones } := by
  have hkept := congrArg (fun b : Alarm => { b with zones := (a.after [first, second]).zones })
    (handle_zone_fst hfirst a)
  exact (handle_zone_fst hsecond (a.handle first).1).trans hkept

/-- After a word of unsealed inputs the zones of its bank that are known to be unsealed are the ones it lists. A word
of another condition tells nothing. -/
theorem handle_zone (h : event.body = .status (.zone bank condition word)) (a : Alarm) :
    (condition = .inputUnsealed →
      (bank.numbers.filter fun number => (a.handle event).1.zone? number = some (some true)) =
        bank.zoneNumbers word) ∧
      (condition ≠ .inputUnsealed → (a.handle event).1 = a) := by
  constructor
  · rintro rfl
    rw [ZoneBank.zoneNumbers_eq_filter]
    refine List.filter_congr fun number hnumber => ?_
    rw [zone?_handle_of_mem h hnumber]
    simp
  · intro hcondition
    rw [handle, h]
    cases condition
    case inputUnsealed => exact absurd rfl hcondition
    all_goals rfl

end Alarm

/-! ## Answers -/

namespace SimulatedPanel

variable {p : SimulatedPanel} {bank : ZoneBank} {number : Nat}

/-- A request for the zones of a bank is answered by the word of the bank. -/
theorem handleCommand_askZones (bank : ZoneBank) (p : SimulatedPanel) :
    p.handleCommand (RequestId.command (.zone bank .inputUnsealed)) =
      p.sendReplies.answer (.zone bank .inputUnsealed (p.zoneWord bank)) := by
  rw [handleCommand, accept, UserCommand.parse?_eq_askZones_iff.mpr rfl]
  exact sendReplies_concat _ p

theorem carried_zoneWord (bank : ZoneBank) (p : SimulatedPanel) :
    (StatusUpdate.zone bank .inputUnsealed (p.zoneWord bank)).carried =
      .zone bank .inputUnsealed (p.zoneWord bank) := by
  rw [StatusUpdate.carried, zoneWord, FlagSet.declared_ofList fun z _ => BankZone.mem_all z]

/-- The word of a bank has at each of its numbers what the panel has there. -/
theorem any_zoneWord (hnumber : number ∈ bank.numbers) (p : SimulatedPanel) :
    (bank.zoneAt? number).any (p.zoneWord bank).has = p.zones.getD (number - 1) false := by
  obtain ⟨z, hz⟩ := Option.isSome_iff_exists.mp (ZoneBank.zoneAt?_isSome_iff.mpr hnumber)
  have hplace : z.number + bank.firstZone - 2 = number - 1 := by
    have := ZoneBank.zoneAt?_eq_some_iff.mp hz
    omega
  rw [hz, Option.any_some, Lockstep.has_zoneWord, hplace]

theorem getD_zones (hnumber : 1 ≤ number) (p : SimulatedPanel) :
    p.zones.getD (number - 1) false = (p.zone? number).getD false := by
  rw [zone?, if_neg (by omega), List.getD_eq_getElem?_getD]

theorem zone?_of_length_lt (hnumber : p.zones.length < number) : p.zone? number = none := by
  unfold zone?
  split
  · rfl
  · exact List.getElem?_eq_none (by omega)

theorem zoneNumbers_zoneWord (bank : ZoneBank) (p : SimulatedPanel) :
    bank.zoneNumbers (p.zoneWord bank) = bank.numbers.filter fun number => p.zone? number = some true := by
  rw [ZoneBank.zoneNumbers_eq_filter]
  refine List.filter_congr fun number hnumber => ?_
  have hfirst : 1 ≤ bank.firstZone := by cases bank <;> decide
  rw [any_zoneWord hnumber, getD_zones (Nat.le_trans hfirst (ZoneBank.mem_numbers_iff.mp hnumber).1)]
  cases hzone : p.zone? number with
  | none => rfl
  | some unsealed => cases unsealed <;> rfl

/-- Both words together list the unsealed zones, and no number that the panel does not have. -/
theorem zoneNumbers_append (hcount : p.zones.length ≤ zoneCount) :
    ZoneBank.lower.zoneNumbers (p.zoneWord .lower) ++ ZoneBank.upper.zoneNumbers (p.zoneWord .upper) =
      (List.range' 1 p.zones.length).filter fun number => p.zone? number = some true := by
  have hsplit : List.range' 1 zoneCount =
      List.range' 1 p.zones.length ++ List.range' (1 + p.zones.length) (zoneCount - p.zones.length) := by
    rw [List.range'_append_1, Nat.add_sub_cancel' hcount]
  have hrest : (List.range' (1 + p.zones.length) (zoneCount - p.zones.length)).filter
      (fun number => p.zone? number = some true) = [] := by
    refine List.filter_eq_nil_iff.mpr fun number hnumber => ?_
    have hlt := (List.mem_range'_1.mp hnumber).1
    simp [zone?_of_length_lt (p := p) (show p.zones.length < number by omega)]
  rw [zoneNumbers_zoneWord, zoneNumbers_zoneWord, ← List.filter_append, ZoneBank.numbers_lower_append_upper, hsplit,
    List.filter_append, hrest, List.append_nil]

/-! ## Snapshots -/

/-- The request for the upper bank finds the zones as the request for the lower one has left them. -/
theorem frames_snapshot (p : SimulatedPanel) :
    ∃ lines, ((p.handleCommand "S00").handleCommand "S20").frames = p.sendReplies.frames ++ lines ∧
      lines.mapM Event.ofLine =
        .ok [answered (.zone .lower .inputUnsealed (p.zoneWord .lower)),
          answered (.zone .upper .inputUnsealed (p.zoneWord .upper))] := by
  let lower : StatusUpdate := .zone .lower .inputUnsealed (p.zoneWord .lower)
  let upper : StatusUpdate := .zone .upper .inputUnsealed (p.zoneWord .upper)
  have hlower : p.handleCommand "S00" = p.sendReplies.answer lower := handleCommand_askZones .lower p
  have hreplies : (p.sendReplies.answer lower).replies = [] := by
    rw [answer, send_eq, sendReplies_eq]
  have hzones : (p.sendReplies.answer lower).zones = p.zones := by
    rw [answer, send_eq, sendReplies_eq]
  have hupper : (p.handleCommand "S00").handleCommand "S20" = (p.sendReplies.answer lower).answer upper := by
    rw [hlower]
    refine (handleCommand_askZones .upper _).trans ?_
    rw [sendReplies_of_nil hreplies, zoneWord, hzones]
    rfl
  refine ⟨[_, _], by rw [hupper, frames_answer, frames_answer, List.append_assoc]; rfl, ?_⟩
  rw [List.mapM_cons, List.mapM_cons]
  exact bind_eq_ok_iff.mpr ⟨_, Event.ofLine_statusFrame (some 0) lower, bind_eq_ok_iff.mpr
    ⟨_, bind_eq_ok_iff.mpr ⟨_, Event.ofLine_statusFrame (some 0) upper, rfl⟩, rfl⟩⟩

/-- An alarm that takes in both words knows each of the 32 zones as the panel has it. -/
theorem zone?_after_words {first second : Event}
    (hfirst : first.body = .status (.zone .lower .inputUnsealed (p.zoneWord .lower)))
    (hsecond : second.body = .status (.zone .upper .inputUnsealed (p.zoneWord .upper)))
    (hnumber : 1 ≤ number ∧ number ≤ zoneCount) (a : Alarm) :
    (a.after [first, second]).zone? number = some (some ((p.zone? number).getD false)) := by
  change ((a.handle first).1.handle second).1.zone? number = _
  rw [← getD_zones hnumber.1]
  by_cases hupper : number ∈ ZoneBank.upper.numbers
  · rw [Alarm.zone?_handle_of_mem hsecond hupper, any_zoneWord hupper]
  · have hlower : number ∈ ZoneBank.lower.numbers := by
      have hall : number ∈ ZoneBank.lower.numbers ++ ZoneBank.upper.numbers := by
        rw [ZoneBank.numbers_lower_append_upper, List.mem_range'_1]
        omega
      exact (List.mem_append.mp hall).resolve_right hupper
    rw [Alarm.zone?_handle_of_not_mem hsecond hupper, Alarm.zone?_handle_of_mem hfirst hlower, any_zoneWord hlower]

/-- A panel that is asked for the zones of both banks sends two more lines, whatever it has sent before. An alarm that
takes them in knows every zone as it is, and those that the panel does not have as sealed, and keeps all else that it
knows. The numbers that the two words list are those of the unsealed zones. And after any word of unsealed inputs the
zones of its bank that an alarm knows to be unsealed are the ones it lists, in order. -/
theorem zoneSnapshot (hcount : p.zones.length ≤ zoneCount) (a : Alarm) :
    (∃ lines first second lower upper,
      ((p.handleCommand "S00").handleCommand "S20").frames = p.sendReplies.frames ++ lines ∧
      lines.mapM Event.ofLine = .ok [first, second] ∧
      first.body = .status (.zone .lower .inputUnsealed lower) ∧
      second.body = .status (.zone .upper .inputUnsealed upper) ∧
      (∀ number unsealed, p.zone? number = some unsealed →
        (a.after [first, second]).zone? number = some (some unsealed)) ∧
      (∀ number, p.zones.length < number → number ≤ zoneCount →
        (a.after [first, second]).zone? number = some (some false)) ∧
      a.after [first, second] = { a with zones := (a.after [first, second]).zones } ∧
      ZoneBank.lower.zoneNumbers lower ++ ZoneBank.upper.zoneNumbers upper =
        (List.range' 1 p.zones.length).filter fun number => p.zone? number = some true) ∧
    ∀ (bank : ZoneBank) (word : FlagSet BankZone) (event : Event),
      event.body = .status (.zone bank .inputUnsealed word) →
        ((List.range' bank.firstZone 16).filter fun number =>
          (a.handle event).1.zone? number = some (some true)) = bank.zoneNumbers word := by
  refine ⟨?_, fun bank word event h => (Alarm.handle_zone h a).1 rfl⟩
  obtain ⟨lines, hframes, hlines⟩ := frames_snapshot p
  let first := answered (.zone .lower .inputUnsealed (p.zoneWord .lower))
  let second := answered (.zone .upper .inputUnsealed (p.zoneWord .upper))
  have hfirst : first.body = .status (.zone .lower .inputUnsealed (p.zoneWord .lower)) :=
    congrArg EventBody.status (carried_zoneWord .lower p)
  have hsecond : second.body = .status (.zone .upper .inputUnsealed (p.zoneWord .upper)) :=
    congrArg EventBody.status (carried_zoneWord .upper p)
  refine ⟨lines, first, second, p.zoneWord .lower, p.zoneWord .upper, hframes, hlines, hfirst, hsecond,
    fun number unsealed hzone => ?_, fun number hlt hle => ?_, ?_, zoneNumbers_append hcount⟩
  · have hnumber : 1 ≤ number ∧ number ≤ zoneCount := by
      unfold zone? at hzone
      split at hzone
      · cases hzone
      · have hlt := (List.getElem?_eq_some_iff.mp hzone).1
        omega
    rw [zone?_after_words hfirst hsecond hnumber, hzone]
    rfl
  · rw [zone?_after_words hfirst hsecond (by omega), zone?_of_length_lt hlt]
    rfl
  · exact Alarm.after_zone_fst hfirst hsecond a

/-- Seventeen zones of which the last is unsealed: the upper bank begins with it, and zone 18 counts as sealed. -/
theorem zoneSnapshot_border :
    let p : SimulatedPanel :=
      { new .default fun _ => ⟨⟨2024, 1, 1, by decide⟩, 0, 0, 0, by decide⟩ with
        zones := List.replicate 16 false ++ [true] }
    p.zones.length ≤ zoneCount ∧ ∃ lines first second,
      ((p.handleCommand "S00").handleCommand "S20").frames = p.sendReplies.frames ++ lines ∧
      lines.mapM Event.ofLine = .ok [first, second] ∧
      ((Alarm.new false).after [first, second]).zone? 16 = some (some false) ∧
      ((Alarm.new false).after [first, second]).zone? 17 = some (some true) ∧
      ((Alarm.new false).after [first, second]).zone? 18 = some (some false) := by
  intro p
  have hcount : p.zones.length ≤ zoneCount := by decide
  obtain ⟨⟨lines, first, second, -, -, hframes, hlines, -, -, hzones, hrest, -⟩, -⟩ :=
    zoneSnapshot hcount (Alarm.new false)
  exact ⟨hcount, lines, first, second, hframes, hlines, hzones 16 false rfl, hzones 17 true rfl,
    hrest 18 (by decide) (by decide)⟩

end SimulatedPanel

end AlarmPanel
