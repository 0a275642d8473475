import LdpProtocol.PythonSigning
import LdpProtocol.PythonWire

/-!
# Both SDKs sign the same bytes

A Python envelope that went through JSON to or from a Rust envelope has the same
header and the same signed body fields, and from these both SDKs feed the same
bytes to the MAC.
-/
namespace LdpProtocol.SigningAgreement
open JsonValues PayloadModes SigningInput PythonSigning
open EnvelopeSigning (Hmac macInput macInput_eq_iff signedBody hexDigit hexEncode
  verifyEnvelope_iff)

/-- The fields of a Rust body that are signed, in the Python record. -/
def SameBody : MessageTypes.LdpMessageBody → PythonMessages.LdpMessageBody → Prop
  | .hello delegateId _, b => b.type = "HELLO" ∧ b.delegateId = some delegateId
  | .capabilityManifest _, b => b.type = "CAPABILITY_MANIFEST"
  | .sessionPropose _, b => b.type = "SESSION_PROPOSE"
  | .sessionAccept sessionId _, b => b.type = "SESSION_ACCEPT" ∧ b.sessionId = some sessionId
  | .sessionReject reason _, b => b.type = "SESSION_REJECT" ∧ b.reason = some reason
  | .taskSubmit taskId skill _ _, b =>
      b.type = "TASK_SUBMIT" ∧ b.taskId = some taskId ∧ b.skill = some skill
  | .taskUpdate taskId _ _, b => b.type = "TASK_UPDATE" ∧ b.taskId = some taskId
  | .taskResult taskId _ _, b => b.type = "TASK_RESULT" ∧ b.taskId = some taskId
  | .taskFailed taskId _, b => b.type = "TASK_FAILED" ∧ b.taskId = some taskId
  | .taskCancel taskId, b => b.type = "TASK_CANCEL" ∧ b.taskId = some taskId
  | .attestation _ _, b => b.type = "ATTESTATION"
  | .sessionClose _, b => b.type = "SESSION_CLOSE"

structure SameFields (e : MessageTypes.LdpEnvelope) (p : PythonMessages.LdpEnvelope) : Prop where
  messageId : p.messageId = e.messageId
  sessionId : p.sessionId = e.sessionId
  from_ : p.from_ = e.from_
  to_ : p.to_ = e.to_
  timestamp : p.timestamp = e.timestamp
  nonce : p.nonce = e.nonce
  body : SameBody e.body p.body

/-- One envelope is what the other is read as after a JSON transfer. -/
def Transferred (e : MessageTypes.LdpEnvelope) (p : PythonMessages.LdpEnvelope) : Prop :=
  (∃ made, PythonMessages.LdpEnvelope.modelValidate made e.toValue = some p) ∨
    MessageTypes.LdpEnvelope.fromValue p.modelDump = some e

theorem sameBody_of_modelValidate {made : PythonMessages.Factories}
    {b : MessageTypes.LdpMessageBody} {c : PythonMessages.LdpMessageBody}
    (h : PythonMessages.LdpMessageBody.modelValidate made b.toValue = some c) : SameBody b c := by
  obtain ⟨htype, hdelegate, _, hsession, _, hreason, htask, hskill⟩ :=
    PythonMessages.LdpMessageBody.validatedFrom_of_modelValidate h
  have htag : c.type = b.tag := (Option.some_inj.mp htype).symm
  cases b <;>
    simp_all [Value.optionField, SameBody, MessageTypes.LdpMessageBody.toValue,
      MessageTypes.LdpMessageBody.tag, MessageTypes.LdpMessageBody.members, List.lookup]

theorem sameFields_of_modelValidate {made : PythonMessages.Factories}
    {e : MessageTypes.LdpEnvelope} {p : PythonMessages.LdpEnvelope}
    (h : PythonMessages.LdpEnvelope.modelValidate made e.toValue = some p) : SameFields e p := by
  have hread := PythonMessages.LdpEnvelope.validatedFrom_of_modelValidate h
  have hbody : PythonMessages.LdpMessageBody.modelValidate made e.body.toValue = some p.body :=
    hread.body
  have hnonce : e.toValue.optionField "nonce" Value.asStr = some e.nonce := by
    apply Value.optionField_of_get Value.isNull_string Value.asStr_string
    simp [MessageTypes.LdpEnvelope.toValue, List.lookup, Value.lookup_skipNone_append,
      Value.lookup_skipNone]
  exact ⟨(Option.some_inj.mp hread.messageId).symm, (Option.some_inj.mp hread.sessionId).symm,
    (Option.some_inj.mp hread.from_).symm, (Option.some_inj.mp hread.to_).symm,
    (Option.some_inj.mp hread.timestamp).symm,
    Option.some_inj.mp (hread.nonce.symm.trans hnonce), sameBody_of_modelValidate hbody⟩

theorem sameBody_of_fromValue {b : MessageTypes.LdpMessageBody}
    {c : PythonMessages.LdpMessageBody}
    (h : MessageTypes.LdpMessageBody.fromValue c.modelDump = some b) : SameBody b c := by
  have hdelegate : c.modelDump.field "delegate_id" Value.asStr = c.delegateId :=
    Value.asStr_orNull_string _
  have hsession : c.modelDump.field "session_id" Value.asStr = c.sessionId :=
    Value.asStr_orNull_string _
  have hreason : c.modelDump.field "reason" Value.asStr = c.reason := Value.asStr_orNull_string _
  have htask : c.modelDump.field "task_id" Value.asStr = c.taskId := Value.asStr_orNull_string _
  have hskill : c.modelDump.field "skill" Value.asStr = c.skill := Value.asStr_orNull_string _
  have htag : MessageTypes.LdpMessageBody.fromValue c.modelDump =
    MessageTypes.LdpMessageBody.ofTag c.modelDump c.type := rfl
  rw [htag] at h
  generalize htype : c.type = type at h
  unfold MessageTypes.LdpMessageBody.ofTag at h
  split at h <;>
    simp only [Option.bind_eq_bind, Option.bind_eq_some_iff, Option.pure_def, Option.some_inj,
      hdelegate, hsession, hreason, htask, hskill, reduceCtorEq] at h <;>
    grind [SameBody]

theorem sameFields_of_fromValue {e : MessageTypes.LdpEnvelope} {p : PythonMessages.LdpEnvelope}
    (h : MessageTypes.LdpEnvelope.fromValue p.modelDump = some e) : SameFields e p := by
  unfold MessageTypes.LdpEnvelope.fromValue at h
  obtain ⟨messageId, hmessage, h⟩ := Option.bind_eq_some_iff.mp h
  obtain ⟨sessionId, hsession, h⟩ := Option.bind_eq_some_iff.mp h
  obtain ⟨from_, hfrom, h⟩ := Option.bind_eq_some_iff.mp h
  obtain ⟨to_, hto, h⟩ := Option.bind_eq_some_iff.mp h
  obtain ⟨body, hbody, h⟩ := Option.bind_eq_some_iff.mp h
  obtain ⟨payloadMode, _, h⟩ := Option.bind_eq_some_iff.mp h
  obtain ⟨timestamp, htimestamp, h⟩ := Option.bind_eq_some_iff.mp h
  obtain ⟨provenance, _, h⟩ := Option.bind_eq_some_iff.mp h
  obtain ⟨signature, _, h⟩ := Option.bind_eq_some_iff.mp h
  obtain ⟨signatureAlgorithm, _, h⟩ := Option.bind_eq_some_iff.mp h
  obtain ⟨nonce, hnonce, h⟩ := Option.bind_eq_some_iff.mp h
  cases h
  have hn : p.modelDump.optionField "nonce" Value.asStr = some p.nonce :=
    Value.nullable_orNull_string _
  rw [hn] at hnonce
  exact ⟨Option.some_inj.mp hmessage, Option.some_inj.mp hsession, Option.some_inj.mp hfrom,
    Option.some_inj.mp hto, Option.some_inj.mp htimestamp, Option.some_inj.mp hnonce,
    sameBody_of_fromValue hbody⟩

theorem sameFields_of_transferred {e : MessageTypes.LdpEnvelope} {p : PythonMessages.LdpEnvelope}
    (h : Transferred e p) : SameFields e p := by
  rcases h with ⟨made, h⟩ | h
  · exact sameFields_of_modelValidate h
  · exact sameFields_of_fromValue h

theorem join_guarded (field : Option String) :
    String.join (guarded field) = field.getD "" := by
  unfold guarded
  cases field with
  | none => rfl
  | some s =>
      by_cases hs : s = ""
      · subst hs
        rfl
      · simp [PythonMessages.truthy, hs]

/-- The guards change which updates are made, not the bytes they feed. -/
theorem join_bodyUpdates {b : MessageTypes.LdpMessageBody} {c : PythonMessages.LdpMessageBody}
    (h : SameBody b c) : String.join (bodyUpdates c) = String.join (signedBody b).1 := by
  have hfield : ∀ s : String,
      String.join (if PythonMessages.truthy (some s) then [s] else []) = s :=
    fun s => join_guarded (some s)
  cases b <;> simp_all [SameBody, bodyUpdates, signedBody, join_guarded]

theorem sameBody_type {b : MessageTypes.LdpMessageBody} {c : PythonMessages.LdpMessageBody}
    (h : SameBody b c) : c.type = (signedBody b).2 := by
  cases b <;> simp_all [SameBody, signedBody]

/-- The bytes Python's `sign_envelope` feeds to the MAC. -/
def pythonCanon (p : PythonMessages.LdpEnvelope) : ByteArray := macInput (signingUpdates p)

theorem pythonCanon_eq {e : MessageTypes.LdpEnvelope} {p : PythonMessages.LdpEnvelope}
    (h : SameFields e p) : pythonCanon p = canon e := by
  unfold pythonCanon canon
  rw [macInput_eq_iff]
  unfold signingUpdates EnvelopeSigning.signingUpdates
  rw [h.from_, h.to_, h.sessionId, h.timestamp, h.messageId, h.nonce, sameBody_type h.body]
  cases e.nonce <;> simp only [String.join_append, join_bodyUpdates h.body]

theorem pythonSign_eq (hmac : Hmac) {e : MessageTypes.LdpEnvelope}
    {p : PythonMessages.LdpEnvelope} (h : SameFields e p) (secret : String) :
    signEnvelope hmac p secret = EnvelopeSigning.signEnvelope hmac e secret := by
  have hbytes : macInput (signingUpdates p) = macInput (EnvelopeSigning.signingUpdates e) :=
    pythonCanon_eq h
  unfold signEnvelope EnvelopeSigning.signEnvelope
  rw [hbytes]

theorem hexDigit_ascii (n : ℕ) : (hexDigit n).toNat < 128 := by
  by_cases hn : n < 16
  · have hall : ∀ n < 16, (hexDigit n).toNat < 128 := by decide
    exact hall n hn
  · unfold hexDigit
    rw [List.getD_eq_getElem?_getD, List.getElem?_eq_none (by simpa using hn)]
    decide

theorem isAscii_hexEncode (bytes : ByteArray) : isAscii (hexEncode bytes) = true := by
  unfold isAscii hexEncode
  rw [String.toList_ofList, List.all_flatMap, List.all_eq_true]
  intro b _
  simp [hexDigit_ascii]

/-- A signature verifies in Python exactly if it is the one Python makes. -/
theorem pythonVerify_iff (hmac : Hmac) (p : PythonMessages.LdpEnvelope)
    (secret signature : String) :
    verifyEnvelope hmac p secret signature = .ok true ↔
      signature = signEnvelope hmac p secret := by
  have hascii : isAscii (signEnvelope hmac p secret) = true := isAscii_hexEncode _
  unfold verifyEnvelope
  constructor
  · intro h
    dsimp only at h
    split at h
    · have heq := Except.ok.inj h
      exact (of_decide_eq_true heq).symm
    · cases h
  · intro h
    subst h
    simp [hascii]

/-- Both SDKs feed the same bytes for an envelope that went through JSON, and
each accepts exactly the signature the other makes. -/
theorem signing_agrees (hmac : Hmac) (e : MessageTypes.LdpEnvelope)
    (p : PythonMessages.LdpEnvelope) (h : Transferred e p) :
    macInput (signingUpdates p) = macInput (EnvelopeSigning.signingUpdates e) ∧
    ∀ secret signature,
      (EnvelopeSigning.verifyEnvelope hmac e secret signature = true ↔
        signature = signEnvelope hmac p secret) ∧
      (verifyEnvelope hmac p secret signature = .ok true ↔
        signature = EnvelopeSigning.signEnvelope hmac e secret) := by
  have hsame := sameFields_of_transferred h
  refine ⟨pythonCanon_eq hsame, ?_⟩
  intro secret signature
  constructor
  · rw [verifyEnvelope_iff, pythonSign_eq hmac hsame]
  · rw [pythonVerify_iff, pythonSign_eq hmac hsame]

/-- HMAC-SHA256 at the signing input of the HELLO below. -/
def helloMac : Hmac := EnvelopeSigning.tabulated
  [("secret", "ldp:a|ldp:b||t0|m1|ldp:a|HELLO",
    [29, 14, 188, 218, 86, 133, 131, 217, 30, 202, 243, 5, 229, 85, 84, 24, 166, 51,
      192, 251, 235, 74, 133, 85, 102, 216, 126, 253, 213, 44, 72, 38])]

theorem signing_agrees_hello :
    verifyEnvelope helloMac
      (PythonMessages.LdpEnvelope.create "m1" "t0" "" "ldp:a" "ldp:b"
        (.hello "ldp:a" [.text]) .text) "secret"
      (EnvelopeSigning.signEnvelope helloMac
        (MessageTypes.LdpEnvelope.new "m1" "t0" "" "ldp:a" "ldp:b"
          (.hello "ldp:a" [.text]) .text) "secret") = .ok true :=
  ((signing_agrees helloMac _ _ (.inr rfl)).2 "secret" _).2.mpr rfl

end LdpProtocol.SigningAgreement
