import AlarmPanel.Proofs.Alarm.Events
import Mathlib.Data.List.Sort

/-!
# The changes that an event makes

The changes that an alarm lists when it takes in an event are what the alarms before and after it differ in,
no more and no less (`Alarm.Update.snd_eq`). So whoever is told the changes, one after the other, knows what
the alarm knows, and is never told what it knows already (`Alarm.Update.tells`).
-/

namespace AlarmPanel

/-! ## Differences -/

/-- The change from one value to another, if they differ. -/
def change? (report : Bool → Change) (before now : Option Bool) : Option Change :=
  if before = now then none else now.map report

/-- The changes from some values to others, in the order of their numbers, which count from one. -/
def valueChanges {n : Nat} (report : Nat → Bool → Change) (before now : Vector (Option Bool) n) :
    List Change :=
  (List.finRange n).filterMap fun i : Fin n => change? (report (i + 1)) before[i] now[i]

theorem change?_self (report : Bool → Change) (value : Option Bool) : change? report value value = none :=
  if_pos rfl

theorem valueChanges_self {n : Nat} (report : Nat → Bool → Change) (values : Vector (Option Bool) n) :
    valueChanges report values values = [] :=
  List.filterMap_eq_nil_iff.mpr fun _ _ => change?_self _ _

/-- Places in ascending order are all the places that are among them. -/
theorem filter_mem_finRange {n : Nat} {places : List (Fin n)} (hplaces : places.Pairwise (· < ·)) :
    (List.finRange n).filter (· ∈ places) = places := by
  apply List.Pairwise.eq_of_mem_iff (r := (· < ·))
  · exact (List.pairwise_lt_finRange n).filter _
  · exact hplaces
  · intro place
    simp

/-- Values that are the same but for some places differ there at most. -/
theorem valueChanges_eq {n : Nat} {report : Nat → Bool → Change} {before now : Vector (Option Bool) n}
    {places : List (Fin n)} (hplaces : places.Pairwise (· < ·)) (hsame : ∀ i ∉ places, now[i] = before[i]) :
    valueChanges report before now =
      places.filterMap fun i : Fin n => change? (report (i + 1)) before[i] now[i] := by
  conv_rhs => rw [← filter_mem_finRange hplaces, List.filterMap_filter]
  apply List.filterMap_congr
  intro i _
  by_cases hi : i ∈ places
  · simp [hi]
  · simp [hi, hsame i hi, change?_self]

namespace Alarm

/-- What two alarms differ in. -/
def differences (before now : Alarm) : List Change :=
  (if before.state = now.state then [] else [.arming now.state now.mode]) ++
    valueChanges .zone before.zones now.zones ++ valueChanges .auxOutput before.auxOutputs now.auxOutputs

variable {a b : Alarm}

/-- Nothing but the state and the mode differs. -/
theorem differences_of_stance (hzones : b.zones = a.zones) (houtputs : b.auxOutputs = a.auxOutputs) :
    a.differences b = if a.state = b.state then [] else [.arming b.state b.mode] := by
  rw [differences, hzones, houtputs, valueChanges_self, valueChanges_self, List.append_nil, List.append_nil]

theorem state_of_stance (h : b.stance = a.stance) : b.state = a.state :=
  congrArg (fun stance => stance.2.1) h

theorem differences_self (a : Alarm) : a.differences a = [] := by
  rw [differences_of_stance rfl rfl, if_pos rfl]

/-- Nothing but the zones differs. -/
theorem differences_of_zones (hstate : b.state = a.state) (houtputs : b.auxOutputs = a.auxOutputs) :
    a.differences b = valueChanges .zone a.zones b.zones := by
  rw [differences, hstate, houtputs, valueChanges_self, List.append_nil, if_pos rfl, List.nil_append]

/-- Nothing but the outputs differs. -/
theorem differences_of_auxOutputs (hstate : b.state = a.state) (hzones : b.zones = a.zones) :
    a.differences b = valueChanges .auxOutput a.auxOutputs b.auxOutputs := by
  rw [differences, hstate, hzones, valueChanges_self, List.append_nil, if_pos rfl, List.nil_append]

/-! ## Entry by entry -/

theorem foldl_andThen {α : Type} (entries : List α) (record : α → Alarm → Updated) (u : Updated) :
    entries.foldl (fun u e => u.andThen (record e)) u = u.andThen fun b => b.forEach entries record := by
  induction entries generalizing u with
  | nil => simp [forEach, Updated.andThen]
  | cons entry entries ih =>
    have hlast (b : Alarm) : b.forEach (entry :: entries) record =
        (Updated.andThen (b, []) (record entry)).andThen fun b => b.forEach entries record := ih _
    rw [List.foldl_cons, ih]
    simp [Updated.andThen, hlast]

/-- The first entry is taken in, and then the others. -/
theorem forEach_cons {α : Type} (entry : α) (entries : List α) (record : α → Alarm → Updated) (a : Alarm) :
    a.forEach (entry :: entries) record = (record entry a).andThen fun b => b.forEach entries record := by
  rw [forEach, List.foldl_cons, foldl_andThen]
  simp [Updated.andThen]

/-- Entries each of which records its value at its place of a vector, and lists the change that this makes. -/
structure Records {α : Type} {n : Nat} (view : Alarm → Vector (Option Bool) n) (report : Nat → Bool → Change)
    (place : α → Fin n) (value : α → Bool) (record : α → Alarm → Updated) : Prop where
  view_eq : ∀ e a, view (record e a).1 = (view a).set (place e) (some (value e))
  changes_eq : ∀ e a, (record e a).2 =
    (change? (report (place e + 1)) (view a)[place e] (some (value e))).toList

section Records

variable {α : Type} {n : Nat} {view : Alarm → Vector (Option Bool) n} {report : Nat → Bool → Change}
  {place : α → Fin n} {value : α → Bool} {record : α → Alarm → Updated} {entries : List α}

theorem Records.getElem_of_not_mem (h : Records view report place value record) (a : Alarm) {i : Fin n}
    (hi : i ∉ entries.map place) : (view (a.forEach entries record).1)[i] = (view a)[i] := by
  induction entries generalizing a with
  | nil => rfl
  | cons entry entries ih =>
    rw [List.map_cons, List.mem_cons, not_or] at hi
    rw [forEach_cons]
    apply (ih (record entry a).1 hi.2).trans
    have hne : (place entry : Nat) ≠ i := fun heq => hi.1 (Fin.ext heq.symm)
    simp [h.view_eq, Vector.getElem_set_ne _ _ hne]

/-- Every entry's value is known in the end, since no other entry has its place. -/
theorem Records.getElem_of_mem (h : Records view report place value record) (a : Alarm)
    (hplaces : entries.Pairwise fun e f => place e < place f) {entry : α} (hentry : entry ∈ entries) :
    (view (a.forEach entries record).1)[place entry] = some (value entry) := by
  induction entries generalizing a with
  | nil => cases hentry
  | cons first entries ih =>
    obtain ⟨hfirst, hrest⟩ := List.pairwise_cons.mp hplaces
    rw [forEach_cons]
    rcases List.mem_cons.mp hentry with rfl | hmem
    · have hout : place entry ∉ entries.map place := by
        intro hmem
        obtain ⟨other, hother, heq⟩ := List.mem_map.mp hmem
        exact absurd heq (Fin.ne_of_gt (hfirst other hother))
      apply (h.getElem_of_not_mem (record entry a).1 hout).trans
      simp [h.view_eq]
    · exact ih (record first a).1 hrest hmem

/-- What an entry changes does not depend on those before it. -/
theorem Records.forEach_snd (h : Records view report place value record) (a : Alarm)
    (hplaces : entries.Pairwise fun e f => place e < place f) :
    (a.forEach entries record).2 = entries.filterMap fun e =>
      change? (report (place e + 1)) (view a)[place e] (some (value e)) := by
  induction entries generalizing a with
  | nil => rfl
  | cons entry entries ih =>
    obtain ⟨hfirst, hrest⟩ := List.pairwise_cons.mp hplaces
    have hothers : (entries.filterMap fun e =>
          change? (report (place e + 1)) (view (record entry a).1)[place e] (some (value e))) =
        entries.filterMap fun e => change? (report (place e + 1)) (view a)[place e] (some (value e)) := by
      apply List.filterMap_congr
      intro e he
      have hne : (place entry : Nat) ≠ place e := Nat.ne_of_lt (hfirst e he)
      simp [h.view_eq, Vector.getElem_set_ne _ _ hne]
    rw [forEach_cons, Updated.andThen, ih _ hrest, hothers, h.changes_eq]
    rw [List.filterMap_cons]
    cases change? (report (place entry + 1)) (view a)[place entry] (some (value entry)) <;> rfl

/-- The changes of entries whose places ascend are what the values before and after them differ in. -/
theorem Records.changes_forEach (h : Records view report place value record) (a : Alarm)
    (hplaces : entries.Pairwise fun e f => place e < place f) :
    (a.forEach entries record).2 = valueChanges report (view a) (view (a.forEach entries record).1) := by
  have hpairwise : (entries.map place).Pairwise (· < ·) := List.pairwise_map.mpr hplaces
  rw [valueChanges_eq hpairwise fun i hi => h.getElem_of_not_mem a hi, List.filterMap_map,
    h.forEach_snd a hplaces]
  apply List.filterMap_congr
  intro entry hentry
  simp only [Function.comp_apply]
  rw [h.getElem_of_mem a hplaces hentry]

end Records

/-! ## Zones and outputs -/

/-- The place of a bank's zone among all zones. -/
def zonePlace (bank : ZoneBank) (z : BankZone) : Fin zoneCount :=
  ⟨z.place.val + bank.firstZone - 1, by cases bank <;> simp [ZoneBank.firstZone, zoneCount] <;> omega⟩

theorem zonePlace_add_one (bank : ZoneBank) (z : BankZone) :
    (zonePlace bank z : Nat) + 1 = z.number + bank.firstZone - 1 := by
  have hfirst : 1 ≤ bank.firstZone := by cases bank <;> decide
  simp only [zonePlace, BankZone.number]
  omega

theorem setZone_at (i : Fin zoneCount) (triggered : Bool) (a : Alarm) :
    (a.setZone (i + 1) triggered).1 = { a with zones := a.zones.set i (some triggered) } ∧
      (a.setZone (i + 1) triggered).2 = (change? (.zone (i + 1)) a.zones[i] (some triggered)).toList := by
  have hi : 1 ≤ (i : Nat) + 1 ∧ (i : Nat) + 1 ≤ zoneCount := ⟨Nat.succ_pos _, i.isLt⟩
  have hplace : a.zones[(i : Nat) + 1 - 1] = a.zones[i] := rfl
  unfold setZone change?
  rw [dif_pos hi, hplace]
  by_cases hknown : a.zones[i] = some triggered
  · have hsame : a.zones.set i (some triggered) = a.zones := by
      rw [← hknown]
      exact Vector.set_getElem_self _
    rw [if_pos hknown, if_pos hknown, hsame]
    exact ⟨rfl, rfl⟩
  · rw [if_neg hknown, if_neg hknown]
    exact ⟨rfl, rfl⟩

theorem setAuxOutput_at (output : AuxOutput) (active : Bool) (a : Alarm) :
    (a.setAuxOutput output active).1 =
        { a with auxOutputs := a.auxOutputs.set output.place (some active) } ∧
      (a.setAuxOutput output active).2 =
        (change? (.auxOutput output.number) a.auxOutputs[output.place] (some active)).toList := by
  unfold setAuxOutput change?
  by_cases hknown : a.auxOutputs[output.place] = some active
  · have hsame : a.auxOutputs.set output.place (some active) = a.auxOutputs := by
      rw [← hknown]
      exact Vector.set_getElem_self _
    rw [if_pos hknown, if_pos hknown, hsame]
    exact ⟨rfl, rfl⟩
  · rw [if_neg hknown, if_neg hknown]
    exact ⟨rfl, rfl⟩

theorem records_bank (bank : ZoneBank) (word : FlagSet BankZone) :
    Records Alarm.zones .zone (zonePlace bank) word.has fun z =>
      setZone (z.number + bank.firstZone - 1) (word.has z) where
  view_eq z a := by
    rw [← zonePlace_add_one, (setZone_at ..).1]
  changes_eq z a := by
    rw [← zonePlace_add_one]
    exact (setZone_at ..).2

theorem records_auxOutputs (flags : FlagSet AuxOutput) :
    Records Alarm.auxOutputs .auxOutput AuxOutput.place flags.has fun o => setAuxOutput o (flags.has o) where
  view_eq o a := by rw [(setAuxOutput_at ..).1]
  changes_eq o a := (setAuxOutput_at ..).2

theorem pairwise_bank (bank : ZoneBank) :
    (Flag.all : List BankZone).Pairwise fun y z => zonePlace bank y < zonePlace bank z := by
  cases bank <;> decide

theorem pairwise_auxOutputs : (Flag.all : List AuxOutput).Pairwise fun o p => o.place < p.place := by decide

/-! ## Events -/

/-- What an alarm shows of itself. -/
structure Display where
  state : ArmingState
  zones : Vector (Option Bool) zoneCount
  auxOutputs : Vector (Option Bool) auxOutputCount

def display (a : Alarm) : Display := ⟨a.state, a.zones, a.auxOutputs⟩

/-- What taking in an event comes to. -/
inductive Update (a : Alarm) : Updated → Prop
  | nothing {b : Alarm} (hsame : b.display = a.display) : a.Update (b, [])
  | state (mode : Option ArmingMode) (state : ArmingState) : a.Update ({ a with mode }.setState state)
  | zone (number : Nat) (triggered : Bool) : a.Update (a.setZone number triggered)
  | zones (bank : ZoneBank) (word : FlagSet BankZone) : a.Update (a.handleZones bank word)
  | auxOutputs (flags : FlagSet AuxOutput) : a.Update (a.handleAuxOutputs flags)

theorem update_handleArming (status : FlagSet ArmingFlag) (a : Alarm) : a.Update (a.handleArming status) := by
  unfold handleArming
  split
  next => exact .state a.mode _
  next =>
    split
    next => exact .state a.mode _
    next =>
      split
      next => exact .state a.mode _
      next => exact .nothing rfl

theorem update_handleStatus (update : StatusUpdate) (a : Alarm) : a.Update (a.handleStatus update) := by
  unfold handleStatus
  split
  next => exact update_handleArming _ a
  next => exact .zones _ _
  next => split <;> exact .nothing rfl
  next => exact .auxOutputs _
  all_goals exact .nothing rfl

theorem update_handleSystem (event : SystemEvent) (a : Alarm) : a.Update (a.handleSystem event) := by
  unfold handleSystem
  split
  next => exact .zone _ _
  next => exact .zone _ _
  next => exact .state a.mode _
  next =>
    split
    next => exact .nothing rfl
    next => exact .state a.mode _
  next => exact .state a.mode _
  next => exact .state a.mode _
  next =>
    split
    next => exact .state a.mode _
    next => exact .nothing rfl
  all_goals first | exact .state _ _ | exact .nothing rfl

theorem update_handle (event : Event) (a : Alarm) : a.Update (a.handle event) := by
  unfold handle
  split
  next => exact update_handleSystem _ a
  next => exact update_handleStatus _ a

theorem setState_snd (mode : Option ArmingMode) (state : ArmingState) (a : Alarm) :
    ({ a with mode }.setState state).2 = a.differences ({ a with mode }.setState state).1 := by
  unfold setState
  by_cases hstate : a.state = state
  · rw [if_pos hstate, differences_of_stance, if_pos rfl] <;> rfl
  · rw [if_neg hstate, differences_of_stance, if_neg hstate] <;> rfl

theorem setZone_snd (number : Nat) (triggered : Bool) (a : Alarm) :
    (a.setZone number triggered).2 = a.differences (a.setZone number triggered).1 := by
  by_cases hnumber : 1 ≤ number ∧ number ≤ zoneCount
  · obtain ⟨i, rfl⟩ : ∃ i : Fin zoneCount, number = i + 1 := ⟨⟨number - 1, by omega⟩, by simp; omega⟩
    obtain ⟨hfirst, hsecond⟩ := setZone_at i triggered a
    have hsame : ∀ j ∉ [i], (a.zones.set i (some triggered))[j] = a.zones[j] := by
      intro j hj
      exact Vector.getElem_set_ne _ _ fun heq => hj (List.mem_singleton.mpr (Fin.ext heq.symm))
    have hset : (a.zones.set i (some triggered))[i] = some triggered := Vector.getElem_set_self _
    rw [hfirst, hsecond, differences_of_zones, valueChanges_eq (List.pairwise_singleton _ i) hsame,
      List.filterMap_cons, List.filterMap_nil, hset]
    · cases change? (.zone (i + 1)) a.zones[i] (some triggered) <;> rfl
    all_goals rfl
  · have hnone : a.setZone number triggered = (a, []) := dif_neg hnumber
    rw [hnone, differences_self]

theorem handleZones_snd (bank : ZoneBank) (word : FlagSet BankZone) (a : Alarm) :
    (a.handleZones bank word).2 = a.differences (a.handleZones bank word).1 := by
  have houtputs : (a.handleZones bank word).1.auxOutputs = a.auxOutputs := by
    apply forEach_preserves Alarm.auxOutputs
    intro z b
    rw [← zonePlace_add_one, (setZone_at ..).1]
  rw [differences_of_zones (state_of_stance (stance_handleZones bank word a)) houtputs]
  exact (records_bank bank word).changes_forEach a (pairwise_bank bank)

theorem handleAuxOutputs_snd (flags : FlagSet AuxOutput) (a : Alarm) :
    (a.handleAuxOutputs flags).2 = a.differences (a.handleAuxOutputs flags).1 := by
  have hzones : (a.handleAuxOutputs flags).1.zones = a.zones := by
    apply forEach_preserves Alarm.zones
    intro o b
    rw [setAuxOutput_fst]
  rw [differences_of_auxOutputs (state_of_stance (stance_handleAuxOutputs flags a)) hzones]
  exact (records_auxOutputs flags).changes_forEach a pairwise_auxOutputs

/-- The changes that an update lists are what the alarms before and after it differ in. -/
theorem Update.snd_eq {a : Alarm} {u : Updated} (hu : a.Update u) : u.2 = a.differences u.1 := by
  induction hu with
  | nothing hsame =>
    obtain ⟨hstate, hzones, houtputs⟩ := Display.mk.inj hsame
    rw [differences_of_stance hzones houtputs, if_pos hstate.symm]
  | state mode state => exact setState_snd mode state a
  | zone number triggered => exact setZone_snd number triggered a
  | zones bank word => exact handleZones_snd bank word a
  | auxOutputs flags => exact handleAuxOutputs_snd flags a

/-! ## Being told -/

namespace Display

/-- Nothing has been told yet. -/
def new : Display := ⟨.unknown, .replicate _ none, .replicate _ none⟩

/-- Whether a change would tell nothing new. -/
def knows (d : Display) : Change → Bool
  | .arming state _ => d.state = state
  | .zone number triggered => d.zones[number - 1]? = some (some triggered)
  | .auxOutput number active => d.auxOutputs[number - 1]? = some (some active)

/-- Takes over a change. -/
def follow (d : Display) : Change → Display
  | .arming state _ => { d with state }
  | .zone number triggered => { d with zones := d.zones.setIfInBounds (number - 1) (some triggered) }
  | .auxOutput number active =>
    { d with auxOutputs := d.auxOutputs.setIfInBounds (number - 1) (some active) }

/-- Each of the changes, told one after the other, is new. -/
def News : Display → List Change → Prop
  | _, [] => True
  | d, change :: changes => d.knows change = false ∧ (d.follow change).News changes

theorem news_append (first second : List Change) (d : Display) :
    d.News (first ++ second) ↔ d.News first ∧ (first.foldl follow d).News second := by
  induction first generalizing d with
  | nil => simp [News]
  | cons change changes ih => simp [News, ih, and_assoc]

/-- No value that is known is forgotten, and one that becomes different becomes known. -/
structure Keeps (d e : Display) : Prop where
  zone (i : Fin zoneCount) : e.zones[i] = d.zones[i] ∨ e.zones[i].isSome
  auxOutput (i : Fin auxOutputCount) : e.auxOutputs[i] = d.auxOutputs[i] ∨ e.auxOutputs[i].isSome

theorem keeps_follow (d : Display) (change : Change) : d.Keeps (d.follow change) := by
  cases change with
  | arming state mode => exact ⟨fun _ => .inl rfl, fun _ => .inl rfl⟩
  | zone number triggered =>
    refine ⟨fun i => ?_, fun _ => .inl rfl⟩
    by_cases hi : number - 1 = i <;> simp [follow, hi]
  | auxOutput number active =>
    refine ⟨fun _ => .inl rfl, fun i => ?_⟩
    by_cases hi : number - 1 = i <;> simp [follow, hi]

theorem keeps_foldl (changes : List Change) (d : Display) : d.Keeps (changes.foldl follow d) := by
  induction changes generalizing d with
  | nil => exact ⟨fun _ => .inl rfl, fun _ => .inl rfl⟩
  | cons change changes ih =>
    have hfirst := keeps_follow d change
    have hrest := ih (d.follow change)
    constructor
    · intro i
      exact (hrest.zone i).elim (fun h => h ▸ hfirst.zone i) .inr
    · intro i
      exact (hrest.auxOutput i).elim (fun h => h ▸ hfirst.auxOutput i) .inr

end Display

/-- The changes of an update tell what the alarm shows after it, to whom knows what it shows before, and
each of them is new. -/
structure Tells (a : Alarm) (u : Updated) : Prop where
  display_eq : u.2.foldl Display.follow a.display = u.1.display
  news : a.display.News u.2

theorem tells_nothing {a b : Alarm} (h : b.display = a.display) : a.Tells (b, []) := ⟨h.symm, trivial⟩

/-- An update may be followed by another one. -/
theorem Tells.append {a : Alarm} {u v : Updated} (hu : a.Tells u) (hv : u.1.Tells v) :
    a.Tells (v.1, u.2 ++ v.2) := by
  constructor
  · rw [List.foldl_append, hu.display_eq, hv.display_eq]
  · rw [Display.news_append, hu.display_eq]
    exact ⟨hu.news, hv.news⟩

theorem tells_forEach {α : Type} (entries : List α) {record : α → Alarm → Updated}
    (hrecord : ∀ e (a : Alarm), a.Tells (record e a)) (a : Alarm) : a.Tells (a.forEach entries record) := by
  induction entries generalizing a with
  | nil => exact tells_nothing rfl
  | cons entry entries ih =>
    rw [forEach_cons]
    exact (hrecord entry a).append (ih _)

theorem tells_setState (mode : Option ArmingMode) (state : ArmingState) (a : Alarm) :
    a.Tells ({ a with mode }.setState state) := by
  unfold setState
  split
  next => exact tells_nothing rfl
  next hstate => exact ⟨rfl, decide_eq_false hstate, trivial⟩

theorem tells_setZone (number : Nat) (triggered : Bool) (a : Alarm) : a.Tells (a.setZone number triggered) := by
  unfold setZone
  split
  next hnumber =>
    split
    next => exact tells_nothing rfl
    next hzone =>
      have hlt : number - 1 < zoneCount := by omega
      refine ⟨?_, ?_, trivial⟩
      · simp [Display.follow, display, Vector.setIfInBounds, Array.setIfInBounds, hlt]
      · simpa [Display.knows, display, hlt] using hzone
  next => exact tells_nothing rfl

theorem tells_setAuxOutput (output : AuxOutput) (active : Bool) (a : Alarm) :
    a.Tells (a.setAuxOutput output active) := by
  unfold setAuxOutput
  split
  next => exact tells_nothing rfl
  next houtput =>
    have hlt : (output.place : Nat) < auxOutputCount := output.place.isLt
    refine ⟨?_, ?_, trivial⟩
    · simp [Display.follow, display, Vector.setIfInBounds, Array.setIfInBounds, AuxOutput.number, hlt]
    · simpa [Display.knows, display, AuxOutput.number, hlt] using houtput

theorem Update.tells {a : Alarm} {u : Updated} (hu : a.Update u) : a.Tells u := by
  induction hu with
  | nothing hsame => exact tells_nothing hsame
  | state mode state => exact tells_setState mode state a
  | zone number triggered => exact tells_setZone number triggered a
  | zones bank word => exact tells_forEach _ (fun _ => tells_setZone _ _) a
  | auxOutputs flags => exact tells_forEach _ (fun _ => tells_setAuxOutput _ _) a

/-! ## Histories -/

/-- The changes that the events make, one after the other. -/
def changes : List Event → Alarm → List Change
  | [], _ => []
  | event :: events, a => (a.handle event).2 ++ (a.handle event).1.changes events

theorem changes_append (first second : List Event) (a : Alarm) :
    a.changes (first ++ second) = a.changes first ++ (a.after first).changes second := by
  induction first generalizing a with
  | nil => rfl
  | cons event events ih =>
    rw [List.cons_append, changes, changes, ih, List.append_assoc]
    rfl

theorem tells_history (events : List Event) (a : Alarm) : a.Tells (a.after events, a.changes events) := by
  induction events generalizing a with
  | nil => exact tells_nothing rfl
  | cons event events ih => exact (update_handle event a).tells.append (ih _)

/-- An event lists what the alarms before and after it differ in, where every value that differs has become
known. So an observer who starts from nothing and takes over the changes, in order, shows what the alarm
shows, after any events, and is told nothing that it knows already. -/
theorem changes_eq_differences :
    (∀ (a : Alarm) (event : Event), (a.handle event).2 = a.differences (a.handle event).1 ∧
      (∀ i : Fin zoneCount, (a.handle event).1.zones[i] ≠ a.zones[i] →
        (a.handle event).1.zones[i].isSome) ∧
      ∀ i : Fin auxOutputCount, (a.handle event).1.auxOutputs[i] ≠ a.auxOutputs[i] →
        (a.handle event).1.auxOutputs[i].isSome) ∧
    ∀ (inferArming : Bool) (events : List Event),
      ((new inferArming).changes events).foldl Display.follow .new = ((new inferArming).after events).display ∧
        Display.new.News ((new inferArming).changes events) := by
  constructor
  · intro a event
    have hupdate := update_handle event a
    have hkeeps := Display.keeps_foldl (a.handle event).2 a.display
    rw [hupdate.tells.display_eq] at hkeeps
    exact ⟨hupdate.snd_eq, fun i => (hkeeps.zone i).resolve_left, fun i => (hkeeps.auxOutput i).resolve_left⟩
  · intro inferArming events
    have htells := tells_history events (new inferArming)
    exact ⟨htells.display_eq, htells.news⟩

end Alarm

end AlarmPanel
