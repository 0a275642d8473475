import LdpProtocol.DelegateIdentity

/-!
# Reading an identity card

Deserialization of the card as serde derives it. A nullable member may be
absent, a defaulted one is not nullable, and `supports_streaming` has no
default. A schema is arbitrary JSON, so that a schema of `null` is written like
no schema and is read as none. Cards without such schemas are read back as they
were written, and every card that was read is one of them.
-/
namespace LdpProtocol.DelegateIdentity
open JsonValues PayloadModes

def TrustDomain.fromValue (v : Value) : Option TrustDomain := do
  let name ← v.field "name" Value.asStr
  let allowCrossDomain ← v.field "allow_cross_domain" Value.asBool
  let trustedPeers ← v.defaultField "trusted_peers" [] (Value.asArray Value.asStr)
  pure ⟨name, allowCrossDomain, trustedPeers⟩

@[simp] theorem TrustDomain.fromValue_toValue (d : TrustDomain) : fromValue d.toValue = some d := by
  have hname : d.toValue.field "name" Value.asStr = some d.name := rfl
  have hallow : d.toValue.field "allow_cross_domain" Value.asBool = some d.allowCrossDomain := rfl
  have hpeers : d.toValue.defaultField "trusted_peers" [] (Value.asArray Value.asStr) =
      some d.trustedPeers := Value.asArray_ofStrings _
  unfold fromValue
  rw [hname, hallow, hpeers]
  rfl

namespace ClaimType

def ofWireName : String → Option ClaimType
  | "self_claimed" => some .selfClaimed
  | "issuer_attested" => some .issuerAttested
  | "runtime_observed" => some .runtimeObserved
  | "externally_benchmarked" => some .externallyBenchmarked
  | _ => none

@[simp] theorem ofWireName_wireName (c : ClaimType) : ofWireName c.wireName = some c := by
  cases c <;> rfl

end ClaimType

namespace QualityMetrics

def fromValue (v : Value) : Option QualityMetrics := do
  let qualityScore ← v.optionField "quality_score" Value.asF64
  let latencyP50Ms ← v.optionField "latency_p50_ms" Value.asU64
  let latencyP99Ms ← v.optionField "latency_p99_ms" Value.asU64
  let costPerCallUsd ← v.optionField "cost_per_call_usd" Value.asF64
  let maxTokens ← v.optionField "max_tokens" Value.asU64
  let supportsStreaming ← v.field "supports_streaming" Value.asBool
  let claimType ← v.defaultField "claim_type" .selfClaimed
    (Value.asUnitVariant ClaimType.ofWireName)
  pure ⟨qualityScore, latencyP50Ms, latencyP99Ms, costPerCallUsd, maxTokens, supportsStreaming,
    claimType⟩

@[simp] theorem isNull_toValue (q : QualityMetrics) : q.toValue.isNull = false := rfl

@[simp] theorem fromValue_toValue (q : QualityMetrics) : fromValue q.toValue = some q := by
  let v := q.toValue
  have hquality : v.optionField "quality_score" Value.asF64 = some q.qualityScore :=
    Value.nullable_orNull_ofF64 _
  have hp50 : v.optionField "latency_p50_ms" Value.asU64 = some q.latencyP50Ms :=
    Value.nullable_orNull Value.isNull_ofU64 Value.asU64_ofU64 _
  have hp99 : v.optionField "latency_p99_ms" Value.asU64 = some q.latencyP99Ms :=
    Value.nullable_orNull Value.isNull_ofU64 Value.asU64_ofU64 _
  have hcost : v.optionField "cost_per_call_usd" Value.asF64 = some q.costPerCallUsd :=
    Value.nullable_orNull_ofF64 _
  have htokens : v.optionField "max_tokens" Value.asU64 = some q.maxTokens :=
    Value.nullable_orNull Value.isNull_ofU64 Value.asU64_ofU64 _
  have hstreaming : v.field "supports_streaming" Value.asBool = some q.supportsStreaming := rfl
  have hclaim : v.defaultField "claim_type" .selfClaimed
      (Value.asUnitVariant ClaimType.ofWireName) = some q.claimType :=
    ClaimType.ofWireName_wireName _
  unfold fromValue
  rw [hquality, hp50, hp99, hcost, htokens, hstreaming, hclaim]
  rfl

end QualityMetrics

/-- A schema of `null` counts as none. -/
def withoutNull (schema : Option Value) : Option Value := schema.filter fun v => !v.isNull

theorem withoutNull_eq_self (schema : Option Value) :
    withoutNull schema = schema ↔ schema ≠ some .null := by
  cases schema with
  | none => simp [withoutNull]
  | some v => cases v <;> simp [withoutNull, Option.filter_some, Value.isNull]

theorem nullable_schema_read (schema : Option Value) :
    (Value.orNull id schema).nullable some = some (withoutNull schema) := by
  cases schema with
  | none => rfl
  | some v => cases v <;> rfl

namespace LdpCapability

def fromValue (v : Value) : Option LdpCapability := do
  let name ← v.field "name" Value.asStr
  let description ← v.optionField "description" Value.asStr
  let inputSchema ← v.optionField "input_schema" some
  let outputSchema ← v.optionField "output_schema" some
  let quality ← v.optionField "quality" QualityMetrics.fromValue
  let domains ← v.defaultField "domains" [] (Value.asArray Value.asStr)
  pure ⟨name, description, inputSchema, outputSchema, quality, domains⟩

/-- The capability without schemas of `null`. -/
def normalized (c : LdpCapability) : LdpCapability :=
  { c with inputSchema := withoutNull c.inputSchema, outputSchema := withoutNull c.outputSchema }

/-- No schema is an explicit `null`. -/
def Normal (c : LdpCapability) : Prop :=
  c.inputSchema ≠ some .null ∧ c.outputSchema ≠ some .null

theorem normalized_eq_self (c : LdpCapability) : c.normalized = c ↔ c.Normal := by
  unfold Normal
  rw [← withoutNull_eq_self, ← withoutNull_eq_self]
  constructor
  · intro h
    exact ⟨congrArg inputSchema h, congrArg outputSchema h⟩
  · rintro ⟨hinput, houtput⟩
    unfold normalized
    rw [hinput, houtput]

theorem fromValue_toValue (c : LdpCapability) : fromValue c.toValue = some c.normalized := by
  have hquality := Value.nullable_orNull QualityMetrics.isNull_toValue
    QualityMetrics.fromValue_toValue c.quality
  simp [fromValue, toValue, normalized, Value.field, Value.optionField, Value.defaultField,
    List.lookup, nullable_schema_read, hquality]

/-- A schema that was read is not `null`: a nullable member takes one for an absent one. -/
theorem normal_of_read {v : Value} {c : LdpCapability} (h : fromValue v = some c) : c.Normal := by
  have hschema {key : String} {schema : Option Value}
      (hread : v.optionField key some = some schema) : schema ≠ some .null := by
    rintro rfl
    obtain ⟨w, hw, hdecode⟩ := Value.optionField_eq_some hread
    exact hw (Option.some.inj hdecode)
  simp only [fromValue, Option.bind_eq_bind, Option.bind_eq_some_iff, Option.pure_def,
    Option.some.injEq] at h
  obtain ⟨name, _, description, _, inputSchema, hinput, outputSchema, houtput, h⟩ := h
  obtain ⟨quality, _, domains, _, rfl⟩ := h
  exact ⟨hschema hinput, hschema houtput⟩

end LdpCapability

namespace LdpIdentityCard

def fromValue (v : Value) : Option LdpIdentityCard := do
  let delegateId ← v.field "delegate_id" Value.asStr
  let name ← v.field "name" Value.asStr
  let description ← v.optionField "description" Value.asStr
  let modelFamily ← v.field "model_family" Value.asStr
  let modelVersion ← v.field "model_version" Value.asStr
  let weightsFingerprint ← v.optionField "weights_fingerprint" Value.asStr
  let trustDomain ← v.field "trust_domain" TrustDomain.fromValue
  let contextWindow ← v.field "context_window" Value.asU64
  let reasoningProfile ← v.optionField "reasoning_profile" Value.asStr
  let costProfile ← v.optionField "cost_profile" Value.asStr
  let latencyProfile ← v.optionField "latency_profile" Value.asStr
  let jurisdiction ← v.optionField "jurisdiction" Value.asStr
  let capabilities ← v.field "capabilities" (Value.asArray LdpCapability.fromValue)
  let supportedPayloadModes ← v.field "supported_payload_modes"
    (Value.asArray PayloadMode.fromValue)
  let endpoint ← v.field "endpoint" Value.asStr
  let metadata ← v.defaultField "metadata" [] Value.asStringMap
  pure ⟨delegateId, name, description, modelFamily, modelVersion, weightsFingerprint, trustDomain,
    contextWindow, reasoningProfile, costProfile, latencyProfile, jurisdiction, capabilities,
    supportedPayloadModes, endpoint, metadata⟩

def normalized (card : LdpIdentityCard) : LdpIdentityCard :=
  { card with capabilities := card.capabilities.map LdpCapability.normalized }

/-- No capability has a schema that is an explicit `null`. -/
def Normal (card : LdpIdentityCard) : Prop := ∀ c ∈ card.capabilities, c.Normal

theorem normalized_eq_self (card : LdpIdentityCard) : card.normalized = card ↔ card.Normal := by
  calc
    card.normalized = card ↔
        card.capabilities.map LdpCapability.normalized = card.capabilities.map id := by
      rw [List.map_id]
      constructor
      · exact congrArg capabilities
      · intro h
        unfold normalized
        rw [h]
    _ ↔ card.Normal := by
      rw [List.map_inj_left]
      exact forall₂_congr fun c _ => c.normalized_eq_self

/-- A card is read as it was written, but for schemas of `null`. -/
theorem fromValue_toValue (card : LdpIdentityCard) :
    fromValue card.toValue = some card.normalized := by
  let v := card.toValue
  have hdescription : v.optionField "description" Value.asStr = some card.description :=
    Value.nullable_orNull_string _
  have hweights : v.optionField "weights_fingerprint" Value.asStr =
      some card.weightsFingerprint := Value.nullable_orNull_string _
  have hdomain : v.field "trust_domain" TrustDomain.fromValue = some card.trustDomain :=
    TrustDomain.fromValue_toValue _
  have hcontext : v.field "context_window" Value.asU64 = some card.contextWindow := by
    have hget : v.get "context_window" = some (.ofU64 card.contextWindow) := rfl
    rw [Value.field, hget, Option.bind_some, Value.asU64_ofU64]
  have hreasoning : v.optionField "reasoning_profile" Value.asStr = some card.reasoningProfile :=
    Value.nullable_orNull_string _
  have hcost : v.optionField "cost_profile" Value.asStr = some card.costProfile :=
    Value.nullable_orNull_string _
  have hlatency : v.optionField "latency_profile" Value.asStr = some card.latencyProfile :=
    Value.nullable_orNull_string _
  have hjurisdiction : v.optionField "jurisdiction" Value.asStr = some card.jurisdiction :=
    Value.nullable_orNull_string _
  have hcapabilities : v.field "capabilities" (Value.asArray LdpCapability.fromValue) =
      some (card.capabilities.map LdpCapability.normalized) :=
    (Value.asArray_map_mapM LdpCapability.fromValue_toValue _).trans List.mapM_pure
  have hmodes : v.field "supported_payload_modes" (Value.asArray PayloadMode.fromValue) =
      some card.supportedPayloadModes := PayloadMode.asArray_fromValue _
  have hmetadata : v.defaultField "metadata" [] Value.asStringMap = some card.metadata :=
    Value.asStringMap_ofStringMap _
  unfold fromValue
  rw [hdescription, hweights, hdomain, hcontext, hreasoning, hcost, hlatency, hjurisdiction,
    hcapabilities, hmodes, hmetadata]
  rfl

theorem normal_of_read {v : Value} {card : LdpIdentityCard} (h : fromValue v = some card) :
    card.Normal := by
  unfold fromValue at h
  obtain ⟨delegateId, _, h⟩ := Option.bind_eq_some_iff.mp h
  obtain ⟨name, _, h⟩ := Option.bind_eq_some_iff.mp h
  obtain ⟨description, _, h⟩ := Option.bind_eq_some_iff.mp h
  obtain ⟨modelFamily, _, h⟩ := Option.bind_eq_some_iff.mp h
  obtain ⟨modelVersion, _, h⟩ := Option.bind_eq_some_iff.mp h
  obtain ⟨weightsFingerprint, _, h⟩ := Option.bind_eq_some_iff.mp h
  obtain ⟨trustDomain, _, h⟩ := Option.bind_eq_some_iff.mp h
  obtain ⟨contextWindow, _, h⟩ := Option.bind_eq_some_iff.mp h
  obtain ⟨reasoningProfile, _, h⟩ := Option.bind_eq_some_iff.mp h
  obtain ⟨costProfile, _, h⟩ := Option.bind_eq_some_iff.mp h
  obtain ⟨latencyProfile, _, h⟩ := Option.bind_eq_some_iff.mp h
  obtain ⟨jurisdiction, _, h⟩ := Option.bind_eq_some_iff.mp h
  obtain ⟨capabilities, hcapabilities, h⟩ := Option.bind_eq_some_iff.mp h
  obtain ⟨supportedPayloadModes, _, h⟩ := Option.bind_eq_some_iff.mp h
  obtain ⟨endpoint, _, h⟩ := Option.bind_eq_some_iff.mp h
  obtain ⟨metadata, _, h⟩ := Option.bind_eq_some_iff.mp h
  cases h
  obtain ⟨w, _, hw⟩ := Option.bind_eq_some_iff.mp hcapabilities
  exact Value.forall_of_asArray (P := LdpCapability.Normal)
    (fun _ _ => LdpCapability.normal_of_read) hw

/-- A card that was read from any document is read again as it is written, and only
a schema of `null` keeps a card from being read back as it is. -/
theorem card_kept_by_wire (card : LdpIdentityCard) :
    fromValue card.toValue = some card.normalized ∧
      (fromValue card.toValue = some card ↔ card.Normal) ∧
      ∀ v, fromValue v = some card → fromValue card.toValue = some card := by
  have hback : fromValue card.toValue = some card ↔ card.Normal := by
    rw [fromValue_toValue, Option.some.injEq, normalized_eq_self]
  exact ⟨card.fromValue_toValue, hback, fun _ h => hback.mpr (normal_of_read h)⟩

end LdpIdentityCard
end LdpProtocol.DelegateIdentity
