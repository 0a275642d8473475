import LdpProtocol.PythonWire
import LdpProtocol.PythonIdentity

/-!
# What one SDK reads of the other's handshake

Each SDK reads the four messages of a handshake as the other wrote them. An
identity card of the Rust SDK is read by the Python SDK unless its trust domain
has a blank name or a capability has a schema that is no object.
-/
namespace LdpProtocol.CrossWire
open JsonValues PayloadModes PythonMessages PythonIdentity

/-- A Rust envelope in the Python record, with its body as given. -/
def received (e : MessageTypes.LdpEnvelope) (body : LdpMessageBody) : LdpEnvelope :=
  { messageId := e.messageId, sessionId := e.sessionId, from_ := e.from_, to_ := e.to_,
    body := body, payloadMode := e.payloadMode, timestamp := e.timestamp,
    signature := e.signature, signatureAlgorithm := e.signatureAlgorithm, nonce := e.nonce }

theorem modelValidate_toValue (made : Factories) {e : MessageTypes.LdpEnvelope}
    (hp : e.provenance = none) {b : LdpMessageBody}
    (hb : LdpMessageBody.modelValidate made e.body.toValue = some b) :
    LdpEnvelope.modelValidate made e.toValue = some (received e b) := by
  obtain ⟨messageId, sessionId, from_, to_, body, payloadMode, timestamp, provenance, signature,
    signatureAlgorithm, nonce⟩ := e
  subst hp
  unfold LdpEnvelope.modelValidate MessageTypes.LdpEnvelope.toValue LdpEnvelope.sender
  cases signature <;> cases signatureAlgorithm <;> cases nonce <;>
    simp [Value.field, Value.optionField, Value.defaultField, Value.skipNone, Value.orNull,
      List.lookup, hb, received]

theorem modelValidate_hello (made : Factories) (delegateId : String) (modes : List PayloadMode) :
    LdpMessageBody.modelValidate made (MessageTypes.LdpMessageBody.hello delegateId modes).toValue =
      some (.hello delegateId modes) := by
  have hmodes : (Value.array (modes.map PayloadMode.toValue)).asArray asMode = some modes :=
    Value.asArray_map asMode_toValue modes
  simp [LdpMessageBody.modelValidate, MessageTypes.LdpMessageBody.toValue,
    MessageTypes.LdpMessageBody.members, MessageTypes.LdpMessageBody.tag, Value.field,
    Value.optionField, List.lookup, hmodes, anyField, LdpMessageBody.hello]

theorem modelValidate_capabilityManifest (made : Factories) (capabilities : Value) :
    LdpMessageBody.modelValidate made
      (MessageTypes.LdpMessageBody.capabilityManifest capabilities).toValue =
      some (.capabilityManifest capabilities) := rfl

theorem modelValidate_sessionPropose (made : Factories) (config : List (String × Value)) :
    LdpMessageBody.modelValidate made
      (MessageTypes.LdpMessageBody.sessionPropose (.object config)).toValue =
      some (.sessionPropose config) := rfl

theorem modelValidate_sessionAccept (made : Factories) (sessionId : String) (mode : PayloadMode) :
    LdpMessageBody.modelValidate made
      (MessageTypes.LdpMessageBody.sessionAccept sessionId mode).toValue =
      some (.sessionAccept sessionId mode) := by
  cases mode <;> rfl

/-- A Python envelope in the Rust record, with its body as given. -/
def sent (p : LdpEnvelope) (body : MessageTypes.LdpMessageBody) : MessageTypes.LdpEnvelope :=
  { messageId := p.messageId, sessionId := p.sessionId, from_ := p.from_, to_ := p.to_,
    body := body, payloadMode := p.payloadMode, timestamp := p.timestamp,
    signature := p.signature, signatureAlgorithm := p.signatureAlgorithm, nonce := p.nonce }

theorem fromValue_modelDump {p : LdpEnvelope} (hp : p.provenance = none)
    {b : MessageTypes.LdpMessageBody}
    (hb : MessageTypes.LdpMessageBody.fromValue p.body.modelDump = some b) :
    MessageTypes.LdpEnvelope.fromValue p.modelDump = some (sent p b) := by
  have hnone : Value.orNull Provenance.modelDump p.provenance = .null := by
    rw [hp]
    rfl
  unfold MessageTypes.LdpEnvelope.fromValue LdpEnvelope.modelDump
  simp [Value.field, Value.optionField, List.lookup, hb, hnone, sent]

theorem fromValue_hello (delegateId : String) (modes : List PayloadMode) :
    MessageTypes.LdpMessageBody.fromValue (LdpMessageBody.hello delegateId modes).modelDump =
      some (.hello delegateId modes) := by
  let v := (LdpMessageBody.hello delegateId modes).modelDump
  have htag : MessageTypes.LdpMessageBody.fromValue v =
      (v.field "supported_modes" (Value.asArray PayloadMode.fromValue)).bind fun read =>
        some (.hello delegateId read) := rfl
  have hmodes : v.field "supported_modes" (Value.asArray PayloadMode.fromValue) = some modes :=
    PayloadMode.asArray_fromValue modes
  rw [htag, hmodes]
  rfl

theorem fromValue_capabilityManifest (capabilities : Value) :
    MessageTypes.LdpMessageBody.fromValue
      (LdpMessageBody.capabilityManifest capabilities).modelDump =
        some (.capabilityManifest capabilities) := rfl

theorem fromValue_sessionPropose (config : List (String × Value)) :
    MessageTypes.LdpMessageBody.fromValue (LdpMessageBody.sessionPropose config).modelDump =
      some (.sessionPropose (.object config)) := rfl

theorem fromValue_sessionAccept (sessionId : String) (mode : PayloadMode) :
    MessageTypes.LdpMessageBody.fromValue (LdpMessageBody.sessionAccept sessionId mode).modelDump =
      some (.sessionAccept sessionId mode) := by
  cases mode <;> rfl

/-- What the Python SDK reads of its own messages, where a validated message is
looked at. -/
theorem validated_body {made : Factories} {b c : LdpMessageBody}
    (h : LdpMessageBody.modelValidate made b.modelDump = some c) :
    c.type = b.type ∧ c.config = b.config ∧ c.sessionId = b.sessionId ∧
      c.negotiatedMode = b.negotiatedMode := by
  have hconfig : b.modelDump.optionField "config" Value.asObject = some b.config :=
    Value.nullable_orNull Value.isNull_object Value.asObject_object b.config
  have hsession : b.modelDump.optionField "session_id" Value.asStr = some b.sessionId :=
    Value.nullable_orNull_string b.sessionId
  have hmode : b.modelDump.optionField "negotiated_mode" asMode = some b.negotiatedMode :=
    Value.nullable_orNull (fun m => by cases m <;> rfl) asMode_toValue b.negotiatedMode
  have hread := LdpMessageBody.validatedFrom_of_modelValidate h
  exact ⟨(Option.some_inj.mp hread.type).symm,
    Option.some_inj.mp (hread.config.symm.trans hconfig),
    Option.some_inj.mp (hread.sessionId.symm.trans hsession),
    Option.some_inj.mp (hread.negotiatedMode.symm.trans hmode)⟩

theorem validated_envelope {made : Factories} {p q : LdpEnvelope}
    (h : LdpEnvelope.modelValidate made p.modelDump = some q) :
    LdpMessageBody.modelValidate made p.body.modelDump = some q.body :=
  (LdpEnvelope.validatedFrom_of_modelValidate h).body

/-- A schema that Python takes for a dictionary or for none. -/
def ReadableSchema (schema : Option Value) : Prop :=
  ∀ v, schema = some v → v = .null ∨ ∃ members, v = .object members

/-- A card of the Rust SDK that the Python SDK reads. -/
structure Readable (card : DelegateIdentity.LdpIdentityCard) : Prop where
  name : isBlank card.trustDomain.name = false
  schemas : ∀ c ∈ card.capabilities, ReadableSchema c.inputSchema ∧ ReadableSchema c.outputSchema

theorem nullable_schema (schema : Option Value) :
    ((Value.orNull id schema).nullable Value.asObject).isSome = true ↔ ReadableSchema schema := by
  unfold ReadableSchema
  cases schema with
  | none => simp [Value.orNull]
  | some v => cases v <;> simp [Value.orNull, Value.nullable, Value.isNull, Value.asObject]

theorem modelValidate_quality (q : DelegateIdentity.QualityMetrics) :
    (QualityMetrics.modelValidate q.toValue).isSome = true := by
  have hint : ∀ n : Option UInt64,
      ((Value.orNull Value.ofU64 n).nullable Value.asInt) =
        some (n.map fun n => (n.toNat : ℤ)) := by
    intro n
    cases n <;> rfl
  have hclaim : ∀ c : DelegateIdentity.ClaimType, claimTypeOfName c.wireName = some c := by
    intro c
    cases c <;> rfl
  simp [QualityMetrics.modelValidate, DelegateIdentity.QualityMetrics.toValue, Value.optionField,
    Value.defaultField, List.lookup, hint, hclaim, asEnum]

theorem nullable_quality (q : Option DelegateIdentity.QualityMetrics) :
    ((Value.orNull DelegateIdentity.QualityMetrics.toValue q).nullable
      QualityMetrics.modelValidate).isSome = true := by
  cases q with
  | none => rfl
  | some q =>
      have hq := modelValidate_quality q
      have hnull : ¬ (q.toValue).isNull = true := Bool.false_ne_true
      simpa [Value.orNull, hnull] using hq

theorem modelValidate_capability (c : DelegateIdentity.LdpCapability) :
    (LdpCapability.modelValidate c.toValue).isSome = true ↔
      ReadableSchema c.inputSchema ∧ ReadableSchema c.outputSchema := by
  obtain ⟨quality, hquality⟩ := Option.isSome_iff_exists.mp (nullable_quality c.quality)
  rw [← nullable_schema c.inputSchema, ← nullable_schema c.outputSchema]
  simp only [LdpCapability.modelValidate, DelegateIdentity.LdpCapability.toValue, Value.field,
    Value.optionField, Value.defaultField, Value.get_object]
  cases hinput : (Value.orNull id c.inputSchema).nullable Value.asObject <;>
    cases houtput : (Value.orNull id c.outputSchema).nullable Value.asObject <;>
    simp [List.lookup, hquality, hinput, houtput]

theorem validateTrustDomain_toValue (d : DelegateIdentity.TrustDomain) :
    validateTrustDomain d.toValue = if isBlank d.name then none else some d := by
  cases hblank : isBlank d.name <;>
    simp [validateTrustDomain, DelegateIdentity.TrustDomain.toValue, Value.field,
      Value.defaultField, List.lookup, hblank, Option.filter_some]

/-- A Rust card in the Python record, with its trust domain and its capabilities as given. -/
def pythonCard (card : DelegateIdentity.LdpIdentityCard) (domain : DelegateIdentity.TrustDomain)
    (capabilities : List LdpCapability) : LdpIdentityCard where
  delegateId := card.delegateId
  name := card.name
  description := card.description
  modelFamily := card.modelFamily
  modelVersion := card.modelVersion
  weightsFingerprint := card.weightsFingerprint
  trustDomain := domain
  contextWindow := card.contextWindow.toNat
  reasoningProfile := card.reasoningProfile
  costProfile := card.costProfile
  latencyProfile := card.latencyProfile
  jurisdiction := card.jurisdiction
  capabilities := capabilities
  supportedPayloadModes := card.supportedPayloadModes
  endpoint := card.endpoint
  metadata := card.metadata

/-- Everything of a card but its trust domain and its capabilities is read. -/
theorem modelValidate_pythonCard (card : DelegateIdentity.LdpIdentityCard) :
    LdpIdentityCard.modelValidate card.toValue =
      (validateTrustDomain card.trustDomain.toValue).bind fun d =>
        ((Value.array (card.capabilities.map DelegateIdentity.LdpCapability.toValue)).asArray
          LdpCapability.modelValidate).map (pythonCard card d) := by
  let v := card.toValue
  have hid : v.field "delegate_id" Value.asStr = some card.delegateId := rfl
  have hname : v.field "name" Value.asStr = some card.name := rfl
  have hdescription : v.optionField "description" Value.asStr = some card.description :=
    Value.nullable_orNull_string _
  have hfamily : v.field "model_family" Value.asStr = some card.modelFamily := rfl
  have hversion : v.field "model_version" Value.asStr = some card.modelVersion := rfl
  have hweights : v.optionField "weights_fingerprint" Value.asStr =
      some card.weightsFingerprint := Value.nullable_orNull_string _
  have hcontext : v.field "context_window" Value.asInt = some (card.contextWindow.toNat : ℤ) :=
    rfl
  have hreasoning : v.optionField "reasoning_profile" Value.asStr = some card.reasoningProfile :=
    Value.nullable_orNull_string _
  have hcost : v.optionField "cost_profile" Value.asStr = some card.costProfile :=
    Value.nullable_orNull_string _
  have hlatency : v.optionField "latency_profile" Value.asStr = some card.latencyProfile :=
    Value.nullable_orNull_string _
  have hjurisdiction : v.optionField "jurisdiction" Value.asStr = some card.jurisdiction :=
    Value.nullable_orNull_string _
  have hmodes : v.defaultField "supported_payload_modes" [.semanticFrame, .text]
      (Value.asArray asMode) = some card.supportedPayloadModes := Value.asArray_map asMode_toValue _
  have hendpoint : v.defaultField "endpoint" "" Value.asStr = some card.endpoint := rfl
  have hmetadata : v.defaultField "metadata" [] Value.asStringMap = some card.metadata :=
    Value.asStringMap_ofStringMap _
  unfold LdpIdentityCard.modelValidate
  rw [hid, hname, hdescription, hfamily, hversion, hweights, hcontext, hreasoning, hcost, hlatency,
    hjurisdiction, hmodes, hendpoint, hmetadata]
  have hdomain : v.field "trust_domain" validateTrustDomain =
      validateTrustDomain card.trustDomain.toValue := rfl
  have hcaps : v.defaultField "capabilities" [] (Value.asArray LdpCapability.modelValidate) =
      (Value.array (card.capabilities.map DelegateIdentity.LdpCapability.toValue)).asArray
        LdpCapability.modelValidate := rfl
  rw [hdomain, hcaps]
  cases validateTrustDomain card.trustDomain.toValue with
  | none => rfl
  | some d =>
      cases (Value.array (card.capabilities.map DelegateIdentity.LdpCapability.toValue)).asArray
        LdpCapability.modelValidate with
      | none => rfl
      | some cs => rfl

theorem modelValidate_toValue_card (card : DelegateIdentity.LdpIdentityCard) :
    ∃ read : DelegateIdentity.TrustDomain → List LdpCapability → LdpIdentityCard,
      (∀ d cs, (read d cs).trustDomain = d) ∧
      LdpIdentityCard.modelValidate card.toValue =
        (validateTrustDomain card.trustDomain.toValue).bind fun d =>
          ((Value.array (card.capabilities.map DelegateIdentity.LdpCapability.toValue)).asArray
            LdpCapability.modelValidate).map (read d) :=
  ⟨pythonCard card, fun _ _ => rfl, modelValidate_pythonCard card⟩

theorem modelValidate_card (card : DelegateIdentity.LdpIdentityCard) :
    (LdpIdentityCard.modelValidate card.toValue).isSome = true ↔ Readable card := by
  obtain ⟨read, _, hread⟩ := modelValidate_toValue_card card
  have hcaps := Value.asArray_isSome DelegateIdentity.LdpCapability.toValue
    LdpCapability.modelValidate card.capabilities
  simp only [modelValidate_capability] at hcaps
  rw [hread, validateTrustDomain_toValue]
  constructor
  · intro h
    cases hblank : isBlank card.trustDomain.name with
    | true => simp [hblank] at h
    | false => exact ⟨hblank, hcaps.mp (by simpa [hblank] using h)⟩
  · intro h
    have hsome := hcaps.mpr h.schemas
    simpa [h.name] using hsome

theorem modelValidate_card_trustDomain {card : DelegateIdentity.LdpIdentityCard}
    {identity : LdpIdentityCard}
    (h : LdpIdentityCard.modelValidate card.toValue = some identity) :
    identity.trustDomain = card.trustDomain := by
  obtain ⟨read, hfield, hread⟩ := modelValidate_toValue_card card
  rw [hread, validateTrustDomain_toValue, Option.bind_eq_some_iff] at h
  obtain ⟨d, hd, h⟩ := h
  obtain ⟨cs, _, hcard⟩ := Option.map_eq_some_iff.mp h
  rw [← hcard, hfield]
  split at hd
  · cases hd
  · exact (Option.some.inj hd).symm

end LdpProtocol.CrossWire
