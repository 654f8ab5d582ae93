import AlarmPanel.Proofs.Payload.Status

/-!
# Payloads that are no status update

A payload is refused for its code only if it begins with two digits and no request has the code that they
spell (`StatusUpdate.decode_eq_unknownRequestId_iff`). In every other case its format is blamed
(`StatusUpdate.decode_eq_error`). Together with what is read this settles the answer to every text
(`StatusUpdate.code_and_word_exact`).
-/

namespace AlarmPanel

theorem ViewState.ofValue_failsByFormat (w : UInt16) : FailsByFormat (ofValue w) := by
  unfold ofValue
  split
  · exact .ok _
  · exact .error _

theorem PanelModel.ofCode_failsByFormat (code : UInt8) : FailsByFormat (ofCode code) := by
  unfold ofCode
  split
  · exact .ok _
  · exact .error _

namespace StatusUpdate

/-! ## Fields that are not there -/

theorem payloadField_failsByFormat (payload : List Char) (start stop : Nat) :
    FailsByFormat (payloadField payload start stop) := by
  unfold payloadField
  split
  · exact readHexField_failsByFormat _
  · exact .error _

theorem payloadWord_failsByFormat (payload : List Char) : FailsByFormat (payloadWord payload) :=
  (payloadField_failsByFormat payload 2 4).bind fun _ => (payloadField_failsByFormat payload 4 6).bind fun _ => .ok _

/-- Once the request is known, only the format of the payload can be at fault. -/
theorem decodeFor_failsByFormat (payload : List Char) (request : RequestId) :
    FailsByFormat (decodeFor payload request) := by
  have hword := payloadWord_failsByFormat payload
  cases request with
  | zone bank condition => exact hword.bind fun w => .ok _
  | arming => exact hword.bind fun w => .ok _
  | miscAlarms => exact hword.bind fun w => .ok _
  | outputs => exact hword.bind fun w => .ok _
  | auxOutputs => exact hword.bind fun w => .ok _
  | viewState => exact hword.bind fun w => (ViewState.ofValue_failsByFormat w).bind fun state => .ok _
  | panelVersion =>
    have hfield (start stop : Nat) := payloadField_failsByFormat payload start stop
    exact (hfield 2 4).bind fun code => (PanelModel.ofCode_failsByFormat code).bind fun model =>
      (hfield 4 5).bind fun major => (hfield 5 6).bind fun minor => .ok _

/-! ## Codes without a request -/

theorem requestOfCode_eq_error_iff {code : UInt8} {e : Error} :
    requestOfCode code = .error e ↔
      e = .unknownRequestId code ∧ ∀ request : RequestId, request.code ≠ code := by
  constructor
  · intro h
    refine ⟨?_, fun request hcode => ?_⟩
    · unfold requestOfCode at h
      split at h
      · cases h
      · exact (Except.error.inj h).symm
    · rw [requestOfCode_eq_ok_iff.mpr hcode] at h
      cases h
  · rintro ⟨rfl, hnone⟩
    unfold requestOfCode
    split
    · next request hfound => exact absurd (RequestId.code_of_ofCode? hfound) (hnone request)
    · rfl

/-- The code is blamed only if it is there and no request has it. -/
theorem decode_eq_unknownRequestId_iff {payload : String} {code : UInt8} :
    decode payload = .error (.unknownRequestId code) ↔
      (∃ field rest, payload.toList = field ++ rest ∧ HexField 2 field code) ∧
        ∀ request : RequestId, request.code ≠ code := by
  unfold decode
  rw [bind_eq_error_iff, ← payloadField_zero_eq_ok_iff]
  constructor
  · rintro (hfield | ⟨c, hc, h⟩)
    · obtain ⟨fault, hfault⟩ := payloadField_failsByFormat _ _ _ _ hfield
      cases hfault
    · obtain hrequest | ⟨request, -, hfor⟩ := bind_eq_error_iff.mp h
      · obtain ⟨heq, hnone⟩ := requestOfCode_eq_error_iff.mp hrequest
        obtain rfl := Error.unknownRequestId.inj heq
        exact ⟨hc, hnone⟩
      · obtain ⟨fault, hfault⟩ := decodeFor_failsByFormat _ _ _ hfor
        cases hfault
  · rintro ⟨hcode, hnone⟩
    exact .inr ⟨code, hcode, bind_eq_error_iff.mpr (.inl (requestOfCode_eq_error_iff.mpr ⟨rfl, hnone⟩))⟩

/-- What is refused is refused for its code or for its format. -/
theorem decode_eq_error {payload : String} {e : Error} (h : decode payload = .error e) :
    (∃ code, e = .unknownRequestId code) ∨ ∃ fault, e = .format fault := by
  obtain hfield | ⟨code, -, h⟩ := bind_eq_error_iff.mp h
  · exact .inr (payloadField_failsByFormat _ _ _ _ hfield)
  · obtain hrequest | ⟨request, -, hfor⟩ := bind_eq_error_iff.mp h
    · exact .inl ⟨code, (requestOfCode_eq_error_iff.mp hrequest).1⟩
    · exact .inr (decodeFor_failsByFormat _ _ _ hfor)

/-! ## What is written for what was read -/

/-- An update is written as the text it was read from in lower case, without undeclared bits. -/
theorem encode_of_digits {u : StatusUpdate} {code : List Char} {w : UInt16} (hcode : HexField 2 code u.request.code)
    (hw : u.word = w &&& u.request.declaredBits) :
    u.encode = String.ofList
      (code.map Char.toLower ++ Text.writeHex .lower 4 (w &&& u.request.declaredBits).toNat) := by
  rw [← String.toList_inj, toList_encode, String.toList_ofList, hcode.map_toLower, hw]

/-- A status update is read back from its payload as it was exactly if it is intact. What is read are the texts
that begin with the digits of an update, six in all, and nothing else in them counts. Such an update is read back
from what is written for it, which is those digits in lower case without the undeclared bits of their word. What
cannot be read is refused for its code if it begins with two digits of a code that no request has, and otherwise
for its format. -/
theorem code_and_word_exact :
    (∀ u : StatusUpdate, decode u.encode = .ok u ↔ u.Intact) ∧
    (∀ (payload : String) (u : StatusUpdate), decode payload = .ok u ↔ u.SpelledBy payload.toList) ∧
    (∀ (payload : String) (u : StatusUpdate), decode payload = .ok u →
      decode u.encode = .ok u ∧
      ∃ code digits rest w, payload.toList = code ++ digits ++ rest ∧
        HexField 2 code u.request.code ∧ WordField digits w ∧
        (∀ other : String, decode (String.ofList (code ++ digits) ++ other) = .ok u) ∧
        digits.map Char.toLower = Text.writeHex .lower 4 w.toNat ∧
        u.encode = String.ofList
          (code.map Char.toLower ++ Text.writeHex .lower 4 (w &&& u.request.declaredBits).toNat)) ∧
    ∀ (payload : String) (e : Error), decode payload = .error e →
      (∀ b, e = .unknownRequestId b ↔
        (∃ field rest, payload.toList = field ++ rest ∧ HexField 2 field b) ∧
          ∀ request : RequestId, request.code ≠ b) ∧
      ((∀ b, e ≠ .unknownRequestId b) → ∃ fault, e = .format fault) := by
  refine ⟨fun u => decode_encode_self_iff, fun payload u => decode_eq_ok_iff, fun payload u h => ?_,
    fun payload e h => ⟨fun b => ?_, ?_⟩⟩
  · obtain ⟨code, text, hpayload, hcode, hintact, digits, rest, w, rfl, hdigits, hw⟩ := decode_eq_ok_iff.mp h
    refine ⟨decode_encode_self_iff.mpr hintact, code, digits, rest, w, ?_, hcode, hdigits, fun other => ?_,
      hdigits.map_toLower, encode_of_digits hcode hw⟩
    · rw [hpayload, List.append_assoc]
    · rw [decode_eq_ok_iff, String.toList_append, String.toList_ofList, List.append_assoc]
      exact ⟨code, _, rfl, hcode, hintact, digits, _, w, rfl, hdigits, hw⟩
  · rw [← decode_eq_unknownRequestId_iff, h, Except.error.injEq]
  · intro hcode
    obtain ⟨b, hb⟩ | hformat := decode_eq_error h
    · exact absurd hb (hcode b)
    · exact hformat

end StatusUpdate

end AlarmPanel
