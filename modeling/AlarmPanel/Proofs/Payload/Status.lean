import AlarmPanel.Proofs.Payload.Word
import AlarmPanel.Status.Update

/-!
# The payload of a status update

A status update is written as the code of its request and four digits for the word of its value. What is read
is exactly what begins with a code and four digits, in either case, where the bits of the word that its
request does not declare are dropped (`StatusUpdate.decode_eq_ok_iff`). Reading an update back therefore
gives what the digits can carry of it (`StatusUpdate.decode_encode`): the declared bits of its flags, and the
low digits of a version. So the updates that come back as they were are those that have nothing else
(`StatusUpdate.carried_eq_self_iff`).
-/

namespace AlarmPanel

/-! ## Codes -/

theorem ViewState.ofValue_eq_ok_iff {w : UInt16} {state : ViewState} :
    ofValue w = .ok state ↔ state.value = w := by
  constructor
  · intro h
    unfold ofValue at h
    split at h
    · next found hfound =>
      obtain rfl := Except.ok.inj h
      have hvalue := List.find?_some hfound
      exact eq_of_beq hvalue
    · cases h
  · rintro rfl
    cases state <;> rfl

theorem PanelModel.ofCode_eq_ok_iff {code : UInt8} {model : PanelModel} :
    ofCode code = .ok model ↔ model.code = code := by
  constructor
  · intro h
    unfold ofCode at h
    split at h
    · next found hfound =>
      obtain rfl := Except.ok.inj h
      have hcode := List.find?_some hfound
      exact eq_of_beq hcode
    · cases h
  · rintro rfl
    cases model <;> rfl

namespace StatusUpdate

/-! ## What the digits carry -/

/-- What four digits can carry of an update. -/
def carried : StatusUpdate → StatusUpdate
  | .zone bank condition zones => .zone bank condition (.declared zones.bits)
  | .arming status => .arming (.declared status.bits)
  | .miscAlarms alarms => .miscAlarms (.declared alarms.bits)
  | .outputs flags => .outputs (.declared flags.bits)
  | .viewState state => .viewState state
  | .panelVersion model major minor => .panelVersion model (major &&& 0x0f) (minor &&& 0x0f)
  | .auxOutputs flags => .auxOutputs (.declared flags.bits)

/-- The flags of the update are declared ones, and each part of a version has one digit. -/
def Intact : StatusUpdate → Prop
  | .zone _ _ zones => zones.OnlyDeclared
  | .arming status => status.OnlyDeclared
  | .miscAlarms alarms => alarms.OnlyDeclared
  | .outputs flags => flags.OnlyDeclared
  | .viewState _ => True
  | .panelVersion _ major minor => major ≤ 15 ∧ minor ≤ 15
  | .auxOutputs flags => flags.OnlyDeclared

theorem and_low_digit_eq_self_iff {a : UInt8} : a &&& 0x0f = a ↔ a ≤ 15 := by
  rw [← UInt8.toNat_inj, toNat_and_lowDigit, UInt8.le_iff_toNat_le]
  change _ ↔ a.toNat ≤ 15
  omega

theorem carried_eq_self_iff {u : StatusUpdate} : u.carried = u ↔ u.Intact := by
  cases u <;> simp [carried, Intact, FlagSet.declared_eq_self_iff, and_low_digit_eq_self_iff]

/-! ## The word of an update -/

/-- The word that the four digits of the update spell. A version part has only one digit. -/
def word : StatusUpdate → UInt16
  | .zone _ _ zones => zones.bits
  | .arming status => status.bits
  | .miscAlarms alarms => alarms.bits
  | .outputs flags => flags.bits
  | .viewState state => state.value
  | .panelVersion model major minor =>
    UInt16.ofNat (256 * model.code.toNat + (16 * (major.toNat % 16) + minor.toNat % 16))
  | .auxOutputs flags => flags.bits

theorem toNat_word_panelVersion (model : PanelModel) (major minor : UInt8) :
    (word (.panelVersion model major minor)).toNat =
      256 * model.code.toNat + (16 * (major.toNat % 16) + minor.toNat % 16) := by
  have hmodel := model.code.toNat_lt
  exact UInt16.toNat_ofNat_of_lt' (by change _ < 65536; omega)

theorem valueDigits_eq (u : StatusUpdate) : u.valueDigits = Text.writeHex .lower 4 u.word.toNat := by
  cases u with
  | panelVersion model major minor =>
    have hmodel : (256 * model.code.toNat + (16 * (major.toNat % 16) + minor.toNat % 16)) / 16 ^ 2 =
        model.code.toNat := by omega
    rw [toNat_word_panelVersion, Text.writeHex_add .lower 2 2, hmodel, Text.writeHex_add .lower 1 1, valueDigits,
      List.append_assoc, toNat_and_lowDigit, toNat_and_lowDigit]
    have hmajor : (256 * model.code.toNat + (16 * (major.toNat % 16) + minor.toNat % 16)) / 16 % 16 =
        major.toNat % 16 % 16 := by omega
    have hminor : (256 * model.code.toNat + (16 * (major.toNat % 16) + minor.toNat % 16)) % 16 =
        minor.toNat % 16 % 16 := by omega
    simp only [Text.writeHex, List.nil_append, Nat.pow_one, hmajor, hminor]
  | zone _ _ _ => rfl
  | arming _ => rfl
  | miscAlarms _ => rfl
  | outputs _ => rfl
  | viewState _ => rfl
  | auxOutputs _ => rfl

theorem intact_carried (u : StatusUpdate) : u.carried.Intact := by
  rw [← carried_eq_self_iff]
  cases u <;> simp [carried, FlagSet.declared, UInt16.and_assoc, UInt8.and_assoc]

@[simp] theorem request_carried (u : StatusUpdate) : u.carried.request = u.request := by
  cases u <;> rfl

/-- What is carried of an update are the declared bits of its word. -/
theorem word_carried (u : StatusUpdate) : u.carried.word = u.word &&& u.request.declaredBits := by
  cases u with
  | panelVersion model major minor =>
    simp only [carried, request, RequestId.declaredBits, and_all_ones, word, toNat_and_lowDigit, Nat.mod_mod]
  | viewState state => exact (and_all_ones _).symm
  | zone _ _ _ => rfl
  | arming _ => rfl
  | miscAlarms _ => rfl
  | outputs _ => rfl
  | auxOutputs _ => rfl

theorem toList_encode (u : StatusUpdate) :
    u.encode.toList = Text.writeHex .lower 2 u.request.code.toNat ++ Text.writeHex .lower 4 u.word.toNat := by
  rw [encode, String.toList_ofList, valueDigits_eq]

/-! ## What is read -/

theorem payloadField_eq_ok_iff {before rest : List Char} {start stop : Nat} {a : UInt8}
    (hbefore : Text.byteLength before = start) (hwidth : 1 ≤ stop - start ∧ stop - start ≤ 2) :
    payloadField (before ++ rest) start stop = .ok a ↔
      ∃ field after, rest = field ++ after ∧ HexField (stop - start) field a := by
  constructor
  · intro h
    unfold payloadField at h
    split at h
    · next field hfield =>
      obtain ⟨after, rfl, hlen⟩ := (Text.byteRange?_append_eq_some_iff hbefore).mp hfield
      exact ⟨field, after, rfl, (readHexField_eq_ok_iff_of_byteLength hwidth hlen).mp h⟩
    · cases h
  · rintro ⟨field, after, rfl, hfield⟩
    rw [payloadField, (Text.byteRange?_append_eq_some_iff hbefore).mpr ⟨after, rfl, hfield.byteLength_eq⟩]
    exact hfield.read hwidth

/-- The first two digits of the payload are its code. -/
theorem payloadField_zero_eq_ok_iff {payload : List Char} {code : UInt8} :
    payloadField payload 0 2 = .ok code ↔ ∃ field rest, payload = field ++ rest ∧ HexField 2 field code := by
  rw [← List.nil_append payload]
  exact payloadField_eq_ok_iff Text.byteLength_nil (by decide)

theorem payloadWord_eq_ok_iff {code rest : List Char} {w : UInt16} (hcode : Text.byteLength code = 2) :
    payloadWord (code ++ rest) = .ok w ↔
      ∃ digits after, rest = digits ++ after ∧ WordField digits w := by
  constructor
  · intro h
    simp only [payloadWord, bind_eq_ok_iff, pure_eq_ok_iff] at h
    obtain ⟨high, hhigh, low, hlow, rfl⟩ := h
    obtain ⟨front, rest, rfl, hfront⟩ := (payloadField_eq_ok_iff hcode (by decide)).mp hhigh
    rw [← List.append_assoc] at hlow
    obtain ⟨back, after, rfl, hback⟩ :=
      (payloadField_eq_ok_iff (hfront.byteLength_append hcode) (by decide)).mp hlow
    exact ⟨front ++ back, after, (List.append_assoc ..).symm,
      wordField_iff.mpr ⟨front, back, high, low, rfl, hfront, hback, rfl⟩⟩
  · rintro ⟨digits, after, rfl, hdigits⟩
    obtain ⟨front, back, high, low, rfl, hfront, hback, rfl⟩ := wordField_iff.mp hdigits
    have hhigh : payloadField (code ++ (front ++ back ++ after)) 2 4 = .ok high :=
      (payloadField_eq_ok_iff hcode (by decide)).mpr ⟨front, _, List.append_assoc .., hfront⟩
    have hlow : payloadField (code ++ (front ++ back ++ after)) 4 6 = .ok low := by
      rw [List.append_assoc, ← List.append_assoc code]
      exact (payloadField_eq_ok_iff (hfront.byteLength_append hcode) (by decide)).mpr ⟨back, after, rfl, hback⟩
    exact bind_eq_ok_iff.mpr ⟨high, hhigh, bind_eq_ok_iff.mpr ⟨low, hlow, rfl⟩⟩

/-- The text begins with four digits for the value of the update, in either case. There may be bits among
them that the request does not declare. -/
def ValueSpelledBy (u : StatusUpdate) (text : List Char) : Prop :=
  u.Intact ∧ ∃ digits rest w, text = digits ++ rest ∧ WordField digits w ∧
    u.word = w &&& u.request.declaredBits

theorem request_eq_viewState_iff {u : StatusUpdate} :
    u.request = .viewState ↔ ∃ state, u = .viewState state := by
  cases u <;> simp [request]

theorem request_eq_panelVersion_iff {u : StatusUpdate} :
    u.request = .panelVersion ↔ ∃ model major minor, u = .panelVersion model major minor := by
  cases u <;> simp [request]

/-- The word of a version is the model's byte and one digit for each part. -/
theorem wordField_version_iff {digits : List Char} {model : PanelModel} {major minor : UInt8}
    (hintact : major ≤ 15 ∧ minor ≤ 15) :
    WordField digits (word (.panelVersion model major minor)) ↔
      ∃ front first second, digits = front ++ (first ++ second) ∧ HexField 2 front model.code ∧
        HexField 1 first major ∧ HexField 1 second minor := by
  have hmajor : major.toNat ≤ 15 := UInt8.le_iff_toNat_le.mp hintact.1
  have hminor : minor.toNat ≤ 15 := UInt8.le_iff_toNat_le.mp hintact.2
  have hword := toNat_word_panelVersion model major minor
  constructor
  · intro h
    obtain ⟨front, back, high, low, rfl, hfront, hback, hw⟩ := wordField_iff.mp h
    obtain ⟨first, second, a, b, rfl, hfirst, hsecond, hlow⟩ := hexField_two_iff.mp hback
    have ha := hfirst.lt_sixteen
    have hb := hsecond.lt_sixteen
    rw [hw, toNat_ofBytes] at hword
    obtain rfl : high = model.code := UInt8.toNat_inj.mp (by omega)
    obtain rfl : a = major := UInt8.toNat_inj.mp (by omega)
    obtain rfl : b = minor := UInt8.toNat_inj.mp (by omega)
    exact ⟨front, first, second, rfl, hfront, hfirst, hsecond⟩
  · rintro ⟨front, first, second, rfl, hfront, hfirst, hsecond⟩
    have hlow : (UInt8.ofNat (16 * major.toNat + minor.toNat)).toNat = 16 * major.toNat + minor.toNat :=
      toNat_ofNat_byte (by omega)
    refine wordField_iff.mpr ⟨front, _, model.code, _, rfl, hfront,
      hexField_two_iff.mpr ⟨first, second, major, minor, rfl, hfirst, hsecond, hlow⟩, ?_⟩
    rw [← UInt16.toNat_inj, toNat_ofBytes, hlow, hword]
    omega

section Reading

variable {code text : List Char} {u : StatusUpdate}

/-- What is read of a word of flags are its declared bits. -/
theorem decodeFor_flags_eq_ok_iff {F : Type} [Flag F] {request : RequestId} (mk : FlagSet F → StatusUpdate)
    (hcode : Text.byteLength code = 2)
    (hread : decodeFor (code ++ text) request =
      (payloadWord (code ++ text) >>= fun w => pure (mk (.declared w))))
    (hmk : ∀ u : StatusUpdate, u.request = request ↔ ∃ s, u = mk s)
    (hword : ∀ s, (mk s).word = s.bits) (hintact : ∀ s, (mk s).Intact ↔ s.OnlyDeclared)
    (hbits : request.declaredBits = FlagSet.allBits F) :
    decodeFor (code ++ text) request = .ok u ↔ u.request = request ∧ u.ValueSpelledBy text := by
  rw [hread, bind_eq_ok_iff]
  simp only [payloadWord_eq_ok_iff hcode, pure_eq_ok_iff, ValueSpelledBy]
  constructor
  · rintro ⟨w, ⟨digits, rest, rfl, hdigits⟩, rfl⟩
    have hrequest := (hmk (mk (.declared w))).mpr ⟨_, rfl⟩
    obtain ⟨honly, heq⟩ := FlagSet.eq_declared_iff.mp (rfl : FlagSet.declared (F := F) w = .declared w)
    refine ⟨hrequest, (hintact _).mpr honly, digits, rest, w, rfl, hdigits, ?_⟩
    rw [hword, hrequest, hbits, heq]
  · rintro ⟨hrequest, hu, digits, rest, w, rfl, hdigits, hw⟩
    obtain ⟨s, rfl⟩ := (hmk u).mp hrequest
    rw [hword, hrequest, hbits] at hw
    have hs := FlagSet.eq_declared_iff.mpr ⟨(hintact s).mp hu, hw⟩
    exact ⟨w, ⟨digits, rest, rfl, hdigits⟩, by rw [← hs]⟩

theorem decodeFor_viewState_eq_ok_iff (hcode : Text.byteLength code = 2) :
    decodeFor (code ++ text) .viewState = .ok u ↔ u.request = .viewState ∧ u.ValueSpelledBy text := by
  constructor
  · intro h
    simp only [decodeFor, bind_eq_ok_iff, pure_eq_ok_iff] at h
    obtain ⟨w, hw, state, hstate, rfl⟩ := h
    obtain ⟨digits, rest, rfl, hdigits⟩ := (payloadWord_eq_ok_iff hcode).mp hw
    obtain rfl := ViewState.ofValue_eq_ok_iff.mp hstate
    exact ⟨rfl, trivial, digits, rest, state.value, rfl, hdigits, (and_all_ones _).symm⟩
  · rintro ⟨hrequest, -, digits, rest, w, rfl, hdigits, hw⟩
    obtain ⟨state, rfl⟩ := request_eq_viewState_iff.mp hrequest
    have hstate : state.value = w := hw.trans (and_all_ones w)
    refine bind_eq_ok_iff.mpr ⟨w, (payloadWord_eq_ok_iff hcode).mpr ⟨digits, rest, rfl, hdigits⟩, ?_⟩
    exact bind_eq_ok_iff.mpr ⟨state, ViewState.ofValue_eq_ok_iff.mpr hstate, rfl⟩

theorem decodeFor_panelVersion_eq_ok_iff (hcode : Text.byteLength code = 2) :
    decodeFor (code ++ text) .panelVersion = .ok u ↔ u.request = .panelVersion ∧ u.ValueSpelledBy text := by
  constructor
  · intro h
    simp only [decodeFor, bind_eq_ok_iff, pure_eq_ok_iff] at h
    obtain ⟨modelCode, hmodelCode, model, hmodel, major, hmajor, minor, hminor, rfl⟩ := h
    obtain rfl := PanelModel.ofCode_eq_ok_iff.mp hmodel
    obtain ⟨front, rest, rfl, hfront⟩ := (payloadField_eq_ok_iff hcode (by decide)).mp hmodelCode
    have hbefore := hfront.byteLength_append hcode
    rw [← List.append_assoc] at hmajor hminor
    obtain ⟨first, rest, rfl, hfirst⟩ := (payloadField_eq_ok_iff hbefore (by decide)).mp hmajor
    rw [← List.append_assoc] at hminor
    obtain ⟨second, rest, rfl, hsecond⟩ :=
      (payloadField_eq_ok_iff (hfirst.byteLength_append hbefore) (by decide)).mp hminor
    have hintact : major ≤ 15 ∧ minor ≤ 15 := ⟨hfirst.le_fifteen, hsecond.le_fifteen⟩
    refine ⟨rfl, hintact, front ++ (first ++ second), rest, _, by simp only [List.append_assoc],
      (wordField_version_iff hintact).mpr ⟨front, first, second, rfl, hfront, hfirst, hsecond⟩,
      (and_all_ones _).symm⟩
  · rintro ⟨hrequest, hintact, digits, rest, w, rfl, hdigits, hw⟩
    obtain ⟨model, major, minor, rfl⟩ := request_eq_panelVersion_iff.mp hrequest
    obtain rfl := hw.trans (and_all_ones w)
    obtain ⟨front, first, second, rfl, hfront, hfirst, hsecond⟩ := (wordField_version_iff hintact).mp hdigits
    have hbefore := hfront.byteLength_append hcode
    have hmodel : payloadField (code ++ (front ++ (first ++ second) ++ rest)) 2 4 = .ok model.code :=
      (payloadField_eq_ok_iff hcode (by decide)).mpr ⟨front, _, List.append_assoc .., hfront⟩
    have hmajor : payloadField (code ++ (front ++ (first ++ second) ++ rest)) 4 5 = .ok major := by
      rw [List.append_assoc, ← List.append_assoc code]
      exact (payloadField_eq_ok_iff hbefore (by decide)).mpr ⟨first, _, List.append_assoc .., hfirst⟩
    have hminor : payloadField (code ++ (front ++ (first ++ second) ++ rest)) 5 6 = .ok minor := by
      rw [List.append_assoc, ← List.append_assoc code, List.append_assoc first, ← List.append_assoc (code ++ front)]
      exact (payloadField_eq_ok_iff (hfirst.byteLength_append hbefore) (by decide)).mpr ⟨second, _, rfl, hsecond⟩
    refine bind_eq_ok_iff.mpr ⟨_, hmodel, bind_eq_ok_iff.mpr ⟨_, PanelModel.ofCode_eq_ok_iff.mpr rfl, ?_⟩⟩
    exact bind_eq_ok_iff.mpr ⟨_, hmajor, bind_eq_ok_iff.mpr ⟨_, hminor, rfl⟩⟩

/-- Behind a code, what is read are exactly the texts that begin with the digits of a value. -/
theorem decodeFor_eq_ok_iff {request : RequestId} (hcode : Text.byteLength code = 2) :
    decodeFor (code ++ text) request = .ok u ↔ u.request = request ∧ u.ValueSpelledBy text := by
  cases request with
  | zone bank condition =>
    refine decodeFor_flags_eq_ok_iff (.zone bank condition) hcode rfl (fun u => ?_) (fun _ => rfl)
      (fun _ => .rfl) rfl
    cases u <;> simp [request]
  | arming =>
    refine decodeFor_flags_eq_ok_iff .arming hcode rfl (fun u => ?_) (fun _ => rfl) (fun _ => .rfl) rfl
    cases u <;> simp [request]
  | miscAlarms =>
    refine decodeFor_flags_eq_ok_iff .miscAlarms hcode rfl (fun u => ?_) (fun _ => rfl) (fun _ => .rfl) rfl
    cases u <;> simp [request]
  | outputs =>
    refine decodeFor_flags_eq_ok_iff .outputs hcode rfl (fun u => ?_) (fun _ => rfl) (fun _ => .rfl) rfl
    cases u <;> simp [request]
  | auxOutputs =>
    refine decodeFor_flags_eq_ok_iff .auxOutputs hcode rfl (fun u => ?_) (fun _ => rfl) (fun _ => .rfl) rfl
    cases u <;> simp [request]
  | viewState => exact decodeFor_viewState_eq_ok_iff hcode
  | panelVersion => exact decodeFor_panelVersion_eq_ok_iff hcode

end Reading

theorem requestOfCode_eq_ok_iff {code : UInt8} {request : RequestId} :
    requestOfCode code = .ok request ↔ request.code = code := by
  constructor
  · intro h
    unfold requestOfCode at h
    split at h
    · next found hfound =>
      obtain rfl := Except.ok.inj h
      exact RequestId.code_of_ofCode? hfound
    · cases h
  · rintro rfl
    rw [requestOfCode, RequestId.ofCode?_code]

/-- The text begins with the code of the update's request and four digits for its value, in either case. -/
def SpelledBy (u : StatusUpdate) (payload : List Char) : Prop :=
  ∃ code text, payload = code ++ text ∧ HexField 2 code u.request.code ∧ u.ValueSpelledBy text

/-- What is read are exactly the texts that begin with the digits of an update. -/
theorem decode_eq_ok_iff {payload : String} {u : StatusUpdate} :
    decode payload = .ok u ↔ u.SpelledBy payload.toList := by
  unfold decode
  generalize payload.toList = cs
  constructor
  · intro h
    simp only [bind_eq_ok_iff] at h
    obtain ⟨c, hc, request, hrequest, h⟩ := h
    obtain ⟨code, text, rfl, hcode⟩ := payloadField_zero_eq_ok_iff.mp hc
    obtain ⟨rfl, hu⟩ := (decodeFor_eq_ok_iff hcode.byteLength_eq).mp h
    obtain rfl := requestOfCode_eq_ok_iff.mp hrequest
    exact ⟨code, text, rfl, hcode, hu⟩
  · rintro ⟨code, text, rfl, hcode, hu⟩
    have hfield : payloadField (code ++ text) 0 2 = .ok u.request.code :=
      payloadField_zero_eq_ok_iff.mpr ⟨code, text, rfl, hcode⟩
    refine bind_eq_ok_iff.mpr ⟨_, hfield, bind_eq_ok_iff.mpr ⟨_, requestOfCode_eq_ok_iff.mpr rfl, ?_⟩⟩
    exact (decodeFor_eq_ok_iff hcode.byteLength_eq).mpr ⟨rfl, hu⟩

/-- An update is read back from its payload as far as the payload carries it. -/
theorem decode_encode (u : StatusUpdate) : decode u.encode = .ok u.carried := by
  rw [decode_eq_ok_iff, toList_encode]
  refine ⟨_, _, rfl, ?_, u.intact_carried, _, [], u.word, (List.append_nil _).symm,
    wordField_writeHex .lower u.word, ?_⟩
  · rw [request_carried]
    exact hexField_writeHex_two .lower u.request.code
  · rw [word_carried, request_carried]

/-- An update comes back as it was exactly if its payload carries all of it. -/
theorem decode_encode_self_iff {u : StatusUpdate} : decode u.encode = .ok u ↔ u.Intact := by
  rw [decode_encode, Except.ok.injEq, carried_eq_self_iff]

/-- Every payload has six characters. -/
theorem length_encode (u : StatusUpdate) : u.encode.toList.length = 6 := by
  rw [toList_encode]
  simp

theorem isAscii_encode (u : StatusUpdate) : Text.isAscii u.encode.toList = true := by
  rw [toList_encode]
  simp

end StatusUpdate

end AlarmPanel
