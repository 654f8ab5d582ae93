import AlarmPanel.Event
import AlarmPanel.Proofs.Frame.RoundTrip
import AlarmPanel.Proofs.Payload.Status
import AlarmPanel.Proofs.Payload.System

/-!
# Events that survive the wire

An event goes out as a payload in a frame on a line, and each of the three layers has its own losses. What
comes back has the address and the time of the event only if the frame on the line has the same parts as
the one that was written, and then its payload is the one that was written. So the losses add up, and
`Event.Faithful` lists them. The other way nothing fails: an event read from any line can be written again
(`Event.toFrame_of_ofLine`).
-/

namespace AlarmPanel

namespace Event

/-- The event loses nothing on its way out and back in. -/
def Faithful (e : Event) : Prop :=
  (∀ t ∈ e.timestamp, 2000 ≤ t.date.year ∧ t.date.year ≤ 2099) ∧
    match e.body with
    | .status update => update.Intact ∧ ¬ (e.address.isSome = true ∧ e.timestamp.isSome = true)
    | .system _ => e.timestamp = none → ∀ a ∈ e.address, a ≤ 15

/-! ## Events and frames -/

theorem ofLine_eq_ok_iff {line : String} {e : Event} :
    ofLine line = .ok e ↔ ∃ g, Frame.decode line = .ok g ∧ ofFrame g = .ok e :=
  bind_eq_ok_iff

theorem ofFrame_eq_ok_iff {g : Frame} {e : Event} :
    ofFrame g = .ok e ↔
      e.address = g.address ∧ e.timestamp = g.timestamp ∧
        match e.body with
        | .status update => g.command = .userInterface ∧ StatusUpdate.decode g.data = .ok update
        | .system event => g.command = .systemStatus ∧ SystemEvent.decode g.data = .ok event := by
  obtain ⟨address, timestamp, body⟩ := e
  cases hcommand : g.command with
  | userInterface =>
    simp only [ofFrame, hcommand, bind_eq_ok_iff, map_eq_ok_iff, pure_eq_ok_iff, Event.mk.injEq]
    constructor
    · rintro ⟨_, ⟨update, hupdate, rfl⟩, rfl, rfl, rfl⟩
      exact ⟨rfl, rfl, trivial, hupdate⟩
    · rintro ⟨rfl, rfl, h⟩
      cases body with
      | status update => exact ⟨_, ⟨update, h.2, rfl⟩, rfl, rfl, rfl⟩
      | system event => cases h.1
  | systemStatus =>
    simp only [ofFrame, hcommand, bind_eq_ok_iff, map_eq_ok_iff, pure_eq_ok_iff, Event.mk.injEq]
    constructor
    · rintro ⟨_, ⟨event, hevent, rfl⟩, rfl, rfl, rfl⟩
      exact ⟨rfl, rfl, trivial, hevent⟩
    · rintro ⟨rfl, rfl, h⟩
      cases body with
      | status update => cases h.1
      | system event => exact ⟨_, ⟨event, h.2, rfl⟩, rfl, rfl, rfl⟩

/-- The frame of a status update. -/
def statusFrame (address : Option UInt8) (timestamp : Option Timestamp) (update : StatusUpdate) :
    Frame :=
  { address, seq := 0, command := .userInterface, data := update.encode, timestamp,
    isResponse := true }

/-- The frame of a system event with this payload. -/
def systemFrame (address : Option UInt8) (timestamp : Option Timestamp) (payload : String) : Frame :=
  { address, seq := 0, command := .systemStatus, data := payload, timestamp, isResponse := false }

theorem toFrame_status_eq_ok_iff {address : Option UInt8} {timestamp : Option Timestamp}
    {update : StatusUpdate} {f : Frame} :
    toFrame ⟨address, timestamp, .status update⟩ = .ok f ↔
      statusFrame address timestamp update = f := by
  simp only [toFrame, statusFrame, Except.ok.injEq]

theorem toFrame_system_eq_ok_iff {address : Option UInt8} {timestamp : Option Timestamp}
    {event : SystemEvent} {f : Frame} :
    toFrame ⟨address, timestamp, .system event⟩ = .ok f ↔
      ∃ payload, event.encode = .ok payload ∧ systemFrame address timestamp payload = f := by
  simp only [toFrame, systemFrame, bind_eq_ok_iff, pure_eq_ok_iff]

/-! ## What comes back -/

/-- An event comes back from a line only as what the parts of that line spell. -/
theorem spell_of_ofLine_encode {e : Event} {f : Frame} (haddr : e.address = f.address)
    (h : ofLine f.encode = .ok e) :
    ∃ g, ofFrame g = .ok e ∧ f.parts.Spell f.start f.lengthField g := by
  obtain ⟨g, hg, he⟩ := ofLine_eq_ok_iff.mp h
  have hgaddr : g.address = f.address := (ofFrame_eq_ok_iff.mp he).1.symm.trans haddr
  exact ⟨g, he, ((Frame.decode_encode_iff_spell (congrArg _ hgaddr)).mp hg).2⟩

/-- The time comes back only if it lies in the century that the line leaves out. -/
theorem year_of_spell {f g : Frame} (hg : f.parts.Spell f.start f.lengthField g)
    (htime : g.timestamp = f.timestamp) :
    ∀ t ∈ f.timestamp, 2000 ≤ t.date.year ∧ t.date.year ≤ 2099 := by
  have hfield := hg.time_field
  rw [htime] at hfield
  exact Frame.timeField_parts_iff.mp hfield

theorem faithful_of_ofLine_status {address : Option UInt8} {timestamp : Option Timestamp}
    {update : StatusUpdate}
    (h : ofLine (statusFrame address timestamp update).encode =
      .ok ⟨address, timestamp, .status update⟩) :
    Faithful ⟨address, timestamp, .status update⟩ := by
  obtain ⟨g, he, hg⟩ := spell_of_ofLine_encode rfl h
  obtain ⟨haddr, htime, -, hdecode⟩ := ofFrame_eq_ok_iff.mp he
  refine ⟨year_of_spell hg htime.symm, ?_, ?_⟩
  · have hdata : g.data = update.encode := hg.data_eq.trans String.ofList_toList
    rw [hdata] at hdecode
    exact StatusUpdate.decode_encode_self_iff.mp hdecode
  · -- An answer with a time has no room for an address: nothing in its line says that there is one.
    rintro ⟨hsome, htimed⟩
    obtain ⟨a, rfl⟩ := Option.isSome_iff_exists.mp hsome
    have hfield := hg.address_field
    rw [← haddr] at hfield
    have hstart := ((Frame.addressField_parts_of_some (f := statusFrame (some a) timestamp update)
      rfl).mp hfield).1
    obtain ⟨-, hnone⟩ := Frame.start_eq_response_iff.mp hstart
    change timestamp = none at hnone
    rw [hnone] at htimed
    cases htimed

theorem faithful_of_ofLine_system {address : Option UInt8} {timestamp : Option Timestamp}
    {event : SystemEvent} {payload : String}
    (h : ofLine (systemFrame address timestamp payload).encode =
      .ok ⟨address, timestamp, .system event⟩) :
    Faithful ⟨address, timestamp, .system event⟩ := by
  obtain ⟨g, he, hg⟩ := spell_of_ofLine_encode rfl h
  obtain ⟨haddr, htime, -⟩ := ofFrame_eq_ok_iff.mp he
  refine ⟨year_of_spell hg htime.symm, ?_⟩
  rintro rfl a rfl
  have hfield := hg.address_field
  rw [← haddr] at hfield
  have hsmall := (Frame.addressField_parts_of_some (f := systemFrame (some a) none payload)
    rfl).mp hfield
  exact hsmall (Frame.start_eq_request_iff.mpr ⟨⟨rfl, rfl⟩, rfl⟩)

/-! ## What comes back as it was -/

/-- An answer without a time comes back as far as its payload carries it. -/
theorem ofLine_statusFrame (address : Option UInt8) (update : StatusUpdate) :
    ofLine (statusFrame address none update).encode = .ok ⟨address, none, .status update.carried⟩ := by
  have hlen : update.encode.length = 6 := by rw [← String.length_toList, update.length_encode]
  have hf : (statusFrame address none update).Faithful := by
    refine ⟨update.isAscii_encode, (by decide : (0 : UInt8) ≤ 1), by simp [statusFrame], ?_⟩
    cases address <;> simp [statusFrame, hlen]
  exact ofLine_eq_ok_iff.mpr ⟨_, Frame.decode_encode_of_faithful hf,
    ofFrame_eq_ok_iff.mpr ⟨rfl, rfl, rfl, update.decode_encode⟩⟩

theorem ofLine_status_of_faithful {address : Option UInt8} {timestamp : Option Timestamp}
    {update : StatusUpdate} (h : Faithful ⟨address, timestamp, .status update⟩) :
    ofLine (statusFrame address timestamp update).encode =
      .ok ⟨address, timestamp, .status update⟩ := by
  obtain ⟨hyear, hintact, hnot⟩ := h
  have hdecode := StatusUpdate.decode_encode_self_iff.mpr hintact
  have hlen : update.encode.length = 6 := by rw [← String.length_toList, update.length_encode]
  have hseq : (0 : UInt8) ≤ 1 := by decide
  cases timestamp with
  | none => rw [ofLine_statusFrame, StatusUpdate.carried_eq_self_iff.mpr hintact]
  | some t =>
    -- With a time the line is no answer, but the event does not keep whether it was one.
    obtain rfl : address = none := by simpa using hnot
    let g : Frame := { statusFrame none (some t) update with isResponse := false }
    have hg : g.Faithful := by
      refine ⟨update.isAscii_encode, hseq, hyear, ?_⟩
      simp [g, statusFrame, hlen]
    have hline : g.encode = (statusFrame none (some t) update).encode :=
      Frame.encode_of_address_none rfl false
    rw [← hline]
    exact ofLine_eq_ok_iff.mpr ⟨g, Frame.decode_encode_of_faithful hg,
      ofFrame_eq_ok_iff.mpr ⟨rfl, rfl, rfl, hdecode⟩⟩

theorem ofLine_system_of_faithful {address : Option UInt8} {timestamp : Option Timestamp}
    {event : SystemEvent} {payload : String} (hencode : event.encode = .ok payload)
    (h : Faithful ⟨address, timestamp, .system event⟩) :
    ofLine (systemFrame address timestamp payload).encode =
      .ok ⟨address, timestamp, .system event⟩ := by
  obtain ⟨hyear, hsmall⟩ := h
  have hpayload := (SystemEvent.encode_eq_ok_iff.mp hencode).2
  have hascii : Text.isAscii payload.toList = true := by
    rw [hpayload, String.toList_ofList, event.isAscii_digits]
  have hlen : payload.length = 6 := by
    rw [← String.length_toList, hpayload, String.toList_ofList, event.length_digits]
  have hf : (systemFrame address timestamp payload).Faithful := by
    refine ⟨hascii, (by decide : (0 : UInt8) ≤ 1), hyear, ?_⟩
    cases address with
    | none => cases timestamp <;> simp [systemFrame, hlen]
    | some a =>
      cases timestamp with
      | none => simp [systemFrame, hlen, hsmall rfl a rfl]
      | some t => simp [systemFrame, hlen]
  exact ofLine_eq_ok_iff.mpr ⟨_, Frame.decode_encode_of_faithful hf,
    ofFrame_eq_ok_iff.mpr ⟨rfl, rfl, rfl, SystemEvent.decode_encode hencode⟩⟩

/-- Only an event of a zone above 99 cannot be sent. What is sent comes back as it was exactly if the
event is faithful. -/
theorem ofLine_toFrame_eq_ok_iff (e : Event) :
    ((∃ f, e.toFrame = .ok f) ↔ ∀ event, e.body = .system event → event.zone ≤ 99) ∧
      ∀ f, e.toFrame = .ok f → (ofLine f.encode = .ok e ↔ e.Faithful) := by
  obtain ⟨address, timestamp, body⟩ := e
  cases body with
  | status update =>
    simp only [toFrame_status_eq_ok_iff]
    refine ⟨by simp, ?_⟩
    rintro f rfl
    exact ⟨faithful_of_ofLine_status, ofLine_status_of_faithful⟩
  | system event =>
    simp only [toFrame_system_eq_ok_iff]
    constructor
    · constructor
      · rintro ⟨f, payload, hencode, -⟩ event' hevent
        obtain rfl := EventBody.system.inj hevent
        exact (SystemEvent.encode_eq_ok_iff.mp hencode).1
      · intro hzone
        exact ⟨_, _, SystemEvent.encode_eq_ok_iff.mpr ⟨hzone event rfl, rfl⟩, rfl⟩
    · rintro f ⟨payload, hencode, rfl⟩
      exact ⟨faithful_of_ofLine_system, ofLine_system_of_faithful hencode⟩

/-! ## What has been read can be written again -/

/-- No line is read as an event that cannot be written: the zone of a system event was read from two
digits. -/
theorem toFrame_of_ofLine {line : String} {e : Event} (h : ofLine line = .ok e) :
    ∃ f, e.toFrame = .ok f := by
  obtain ⟨address, timestamp, body⟩ := e
  obtain ⟨g, -, he⟩ := ofLine_eq_ok_iff.mp h
  obtain ⟨-, -, hdecode⟩ := ofFrame_eq_ok_iff.mp he
  cases body with
  | status update => exact ⟨_, toFrame_status_eq_ok_iff.mpr rfl⟩
  | system event =>
    have hspelled := SystemEvent.decode_eq_ok_iff.mp hdecode.2
    exact ⟨_, toFrame_system_eq_ok_iff.mpr ⟨_, (SystemEvent.encode_of_spelledBy hspelled).2, rfl⟩⟩

end Event

/-- A system event can be written exactly if its zone has two digits. It is then six characters, which are
read back as the event whatever follows them. What is read is what begins with the digits of an event, in
either case, and such an event is written as these digits again. So nothing read from a line fails to be
written. -/
theorem SystemEvent.six_digits_exact :
    (∀ e : SystemEvent, ((∃ payload, e.encode = .ok payload) ↔ e.zone ≤ 99) ∧
      ∀ payload, e.encode = .ok payload →
        payload.length = 6 ∧ ∀ rest, decode (payload ++ rest) = .ok e) ∧
    (∀ (payload : String) (e : SystemEvent), decode payload = .ok e ↔ e.SpelledBy payload.toList) ∧
    (∀ (payload : String) (e : SystemEvent), decode payload = .ok e →
      e.zone ≤ 99 ∧ e.encode = .ok (String.ofList ((payload.toList.take 6).map Char.toLower))) ∧
    ∀ (line : String) (event : Event), Event.ofLine line = .ok event →
      ∃ frame, event.toFrame = .ok frame := by
  refine ⟨fun e => ⟨⟨?_, ?_⟩, ?_⟩, fun payload e => decode_eq_ok_iff,
    fun payload e h => encode_of_spelledBy (decode_eq_ok_iff.mp h), fun line event => Event.toFrame_of_ofLine⟩
  · rintro ⟨payload, hencode⟩
    exact (encode_eq_ok_iff.mp hencode).1
  · intro hzone
    exact ⟨_, encode_eq_ok_iff.mpr ⟨hzone, rfl⟩⟩
  · intro payload hencode
    obtain ⟨hzone, rfl⟩ := encode_eq_ok_iff.mp hencode
    refine ⟨by rw [String.length_ofList, e.length_digits], fun rest => ?_⟩
    rw [decode_eq_ok_iff, String.toList_append, String.toList_ofList]
    exact spelledBy_digits hzone rest.toList

end AlarmPanel
