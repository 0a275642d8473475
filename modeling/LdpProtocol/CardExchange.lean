import LdpProtocol.IdentityWire
import LdpProtocol.CrossWire
import LdpProtocol.PythonRoundTrip

/-!
# Identity cards between the SDKs

Both SDKs write a card as the same members in the same order. So a document that
one SDK wrote and the other reads is written by the other one as it was: nothing
is lost, reordered or filled in on the way. What is left is which documents are
read. Python takes a Rust card unless its trust domain has a blank name or a
schema is no object; Rust takes a Python card whose integers are all unsigned
and of 64 bits.
-/
namespace LdpProtocol.CardExchange
open JsonValues PayloadModes PythonMessages PythonIdentity CrossWire

/-- The Python integer fits the unsigned field of the Rust SDK. -/
def IsU64 (i : ℤ) : Prop := 0 ≤ i ∧ i < 2 ^ 64

section Integers

theorem asU64_ofInt_isSome (i : ℤ) : (ofInt i).asU64.isSome = true ↔ IsU64 i := by
  unfold ofInt Value.asU64 IsU64
  split <;> simp_all

theorem ofU64_of_asU64 {i : ℤ} {n : UInt64} (h : (ofInt i).asU64 = some n) :
    Value.ofU64 n = ofInt i := by
  obtain ⟨h0, hlt⟩ := (asU64_ofInt_isSome i).mp (Option.isSome_iff_exists.mpr ⟨n, h⟩)
  have hread : (if 0 ≤ i ∧ i < 2 ^ 64 then some (UInt64.ofNat i.toNat) else none) = some n := h
  rw [if_pos ⟨h0, hlt⟩, Option.some.injEq] at hread
  have hn : (n.toNat : ℤ) = i := by
    rw [← hread, UInt64.toNat_ofNat_of_lt' (by rw [UInt64.size]; omega)]
    omega
  rw [Value.ofU64, ofInt, hn]

theorem orNull_ofU64_of_read {o : Option ℤ} {n : Option UInt64}
    (h : (Value.orNull ofInt o).nullable Value.asU64 = some n) :
    Value.orNull Value.ofU64 n = Value.orNull ofInt o :=
  Value.orNull_eq_of_nullable isNull_ofInt (fun _ _ => ofU64_of_asU64) h

theorem orNull_asU64_isSome (o : Option ℤ) :
    ((Value.orNull ofInt o).nullable Value.asU64).isSome = true ↔ ∀ i, o = some i → IsU64 i := by
  cases o with
  | none => simp [Value.orNull]
  | some i =>
      have hi := asU64_ofInt_isSome i
      simpa [Value.orNull, isNull_ofInt] using hi

end Integers

section RustToPython

theorem quality_rewritten {q : DelegateIdentity.QualityMetrics} {read : QualityMetrics}
    (h : QualityMetrics.modelValidate q.toValue = some read) : read.modelDump = q.toValue := by
  let v := q.toValue
  have hint (o : Option UInt64) : (Value.orNull Value.ofU64 o).nullable Value.asInt =
      some (o.map fun n => (n.toNat : ℤ)) := by
    cases o <;> rfl
  have hobject : v.asObject = some _ := rfl
  have hquality : v.optionField "quality_score" Value.asF64 = some q.qualityScore :=
    Value.nullable_orNull_ofF64 _
  have hp50 : v.optionField "latency_p50_ms" Value.asInt = some _ := hint q.latencyP50Ms
  have hp99 : v.optionField "latency_p99_ms" Value.asInt = some _ := hint q.latencyP99Ms
  have hcost : v.optionField "cost_per_call_usd" Value.asF64 = some q.costPerCallUsd :=
    Value.nullable_orNull_ofF64 _
  have htokens : v.optionField "max_tokens" Value.asInt = some _ := hint q.maxTokens
  have hstreaming : v.defaultField "supports_streaming" false Value.asBool =
      some q.supportsStreaming := rfl
  have hclaim : v.defaultField "claim_type" .selfClaimed (asEnum claimTypeOfName) =
      some q.claimType := DelegateIdentity.ClaimType.ofWireName_wireName _
  unfold QualityMetrics.modelValidate at h
  rw [hobject, hquality, hp50, hp99, hcost, htokens, hstreaming, hclaim] at h
  cases h
  have hback (o : Option UInt64) : Value.orNull ofInt (o.map fun n => (n.toNat : ℤ)) =
      Value.orNull Value.ofU64 o := by
    cases o <;> rfl
  unfold QualityMetrics.modelDump DelegateIdentity.QualityMetrics.toValue
  rw [hback, hback, hback]

theorem schema_rewritten {schema : Option Value} {read : Option (List (String × Value))}
    (h : (Value.orNull id schema).nullable Value.asObject = some read) :
    Value.orNull .object read = Value.orNull id schema := by
  cases schema with
  | none =>
      cases h
      rfl
  | some v =>
      cases v <;> cases h <;> rfl

theorem capability_rewritten {c : DelegateIdentity.LdpCapability} {read : LdpCapability}
    (h : LdpCapability.modelValidate c.toValue = some read) : read.modelDump = c.toValue := by
  let v := c.toValue
  have hname : v.field "name" Value.asStr = some c.name := rfl
  have hdescription : v.optionField "description" Value.asStr = some c.description :=
    Value.nullable_orNull_string _
  have hdomains : v.defaultField "domains" [] (Value.asArray Value.asStr) = some c.domains :=
    Value.asArray_ofStrings _
  unfold LdpCapability.modelValidate at h
  rw [hname, hdescription, hdomains] at h
  simp only [Option.bind_eq_bind, Option.bind_some, Option.bind_eq_some_iff, Option.pure_def,
    Option.some.injEq] at h
  obtain ⟨inputSchema, hinput, outputSchema, houtput, quality, hquality, rfl⟩ := h
  have hquality : Value.orNull QualityMetrics.modelDump quality =
      Value.orNull DelegateIdentity.QualityMetrics.toValue c.quality :=
    Value.orNull_eq_of_nullable DelegateIdentity.QualityMetrics.isNull_toValue
      (fun _ _ => quality_rewritten) hquality
  unfold LdpCapability.modelDump DelegateIdentity.LdpCapability.toValue
  rw [schema_rewritten hinput, schema_rewritten houtput, hquality]

/-- What the Python SDK reads of a Rust card, it writes as it stood there. -/
theorem card_rewritten {card : DelegateIdentity.LdpIdentityCard} {identity : LdpIdentityCard}
    (h : LdpIdentityCard.modelValidate card.toValue = some identity) :
    identity.modelDump = card.toValue := by
  have hdomain := modelValidate_card_trustDomain h
  rw [modelValidate_pythonCard, Option.bind_eq_some_iff] at h
  obtain ⟨d, _, h⟩ := h
  obtain ⟨capabilities, hcapabilities, rfl⟩ := Option.map_eq_some_iff.mp h
  have hcapabilities : capabilities.map LdpCapability.modelDump =
      card.capabilities.map DelegateIdentity.LdpCapability.toValue :=
    Value.map_eq_of_asArray (fun _ _ => capability_rewritten) hcapabilities
  unfold LdpIdentityCard.modelDump DelegateIdentity.LdpIdentityCard.toValue
  rw [hdomain]
  unfold pythonCard
  rw [hcapabilities]
  rfl

end RustToPython

section PythonToPython

theorem quality_kept (q : QualityMetrics) : QualityMetrics.modelValidate q.modelDump = some q := by
  let v := q.modelDump
  have hobject : v.asObject = some _ := rfl
  have hquality : v.optionField "quality_score" Value.asF64 = some q.qualityScore :=
    Value.nullable_orNull_ofF64 _
  have hp50 : v.optionField "latency_p50_ms" Value.asInt = some q.latencyP50Ms := nullable_ofInt _
  have hp99 : v.optionField "latency_p99_ms" Value.asInt = some q.latencyP99Ms := nullable_ofInt _
  have hcost : v.optionField "cost_per_call_usd" Value.asF64 = some q.costPerCallUsd :=
    Value.nullable_orNull_ofF64 _
  have htokens : v.optionField "max_tokens" Value.asInt = some q.maxTokens := nullable_ofInt _
  have hstreaming : v.defaultField "supports_streaming" false Value.asBool =
      some q.supportsStreaming := rfl
  have hclaim : v.defaultField "claim_type" .selfClaimed (asEnum claimTypeOfName) =
      some q.claimType := DelegateIdentity.ClaimType.ofWireName_wireName _
  unfold QualityMetrics.modelValidate
  rw [hobject, hquality, hp50, hp99, hcost, htokens, hstreaming, hclaim]
  rfl

theorem isNull_modelDump (q : QualityMetrics) : q.modelDump.isNull = false := rfl

theorem capability_kept (c : LdpCapability) : LdpCapability.modelValidate c.modelDump = some c := by
  let v := c.modelDump
  have hname : v.field "name" Value.asStr = some c.name := rfl
  have hdescription : v.optionField "description" Value.asStr = some c.description :=
    Value.nullable_orNull_string _
  have hinput : v.optionField "input_schema" Value.asObject = some c.inputSchema :=
    nullable_object _
  have houtput : v.optionField "output_schema" Value.asObject = some c.outputSchema :=
    nullable_object _
  have hquality : v.optionField "quality" QualityMetrics.modelValidate = some c.quality :=
    Value.nullable_orNull isNull_modelDump quality_kept c.quality
  have hdomains : v.defaultField "domains" [] (Value.asArray Value.asStr) = some c.domains :=
    Value.asArray_ofStrings _
  unfold LdpCapability.modelValidate
  rw [hname, hdescription, hinput, houtput, hquality, hdomains]
  rfl

/-- The Python SDK reads its own cards, but for the name of the trust domain. -/
theorem card_kept (identity : LdpIdentityCard) :
    LdpIdentityCard.modelValidate identity.modelDump =
      if isBlank identity.trustDomain.name then none else some identity := by
  let v := identity.modelDump
  have hid : v.field "delegate_id" Value.asStr = some identity.delegateId := rfl
  have hname : v.field "name" Value.asStr = some identity.name := rfl
  have hdescription : v.optionField "description" Value.asStr = some identity.description :=
    Value.nullable_orNull_string _
  have hfamily : v.field "model_family" Value.asStr = some identity.modelFamily := rfl
  have hversion : v.field "model_version" Value.asStr = some identity.modelVersion := rfl
  have hweights : v.optionField "weights_fingerprint" Value.asStr =
      some identity.weightsFingerprint := Value.nullable_orNull_string _
  have hdomain : v.field "trust_domain" validateTrustDomain =
      if isBlank identity.trustDomain.name then none else some identity.trustDomain :=
    validateTrustDomain_toValue _
  have hcontext : v.field "context_window" Value.asInt = some identity.contextWindow := rfl
  have hreasoning : v.optionField "reasoning_profile" Value.asStr =
      some identity.reasoningProfile := Value.nullable_orNull_string _
  have hcost : v.optionField "cost_profile" Value.asStr = some identity.costProfile :=
    Value.nullable_orNull_string _
  have hlatency : v.optionField "latency_profile" Value.asStr = some identity.latencyProfile :=
    Value.nullable_orNull_string _
  have hjurisdiction : v.optionField "jurisdiction" Value.asStr = some identity.jurisdiction :=
    Value.nullable_orNull_string _
  have hcapabilities : v.defaultField "capabilities" [] (Value.asArray
      LdpCapability.modelValidate) = some identity.capabilities :=
    Value.asArray_map capability_kept _
  have hmodes : v.defaultField "supported_payload_modes" [.semanticFrame, .text]
      (Value.asArray asMode) = some identity.supportedPayloadModes :=
    Value.asArray_map asMode_toValue _
  have hendpoint : v.defaultField "endpoint" "" Value.asStr = some identity.endpoint := rfl
  have hmetadata : v.defaultField "metadata" [] Value.asStringMap = some identity.metadata :=
    Value.asStringMap_ofStringMap _
  unfold LdpIdentityCard.modelValidate
  rw [hid, hname, hdescription, hfamily, hversion, hweights, hdomain, hcontext, hreasoning, hcost,
    hlatency, hjurisdiction, hcapabilities, hmodes, hendpoint, hmetadata]
  cases isBlank identity.trustDomain.name <;> rfl

end PythonToPython

section PythonToRust

/-- Python metrics in the Rust record, with the integers as given. -/
def rustQuality (q : QualityMetrics) (latencyP50Ms latencyP99Ms maxTokens : Option UInt64) :
    DelegateIdentity.QualityMetrics :=
  ⟨q.qualityScore, latencyP50Ms, latencyP99Ms, q.costPerCallUsd, maxTokens, q.supportsStreaming,
    q.claimType⟩

theorem fromValue_quality (q : QualityMetrics) :
    DelegateIdentity.QualityMetrics.fromValue q.modelDump =
      ((Value.orNull ofInt q.latencyP50Ms).nullable Value.asU64).bind fun p50 =>
        ((Value.orNull ofInt q.latencyP99Ms).nullable Value.asU64).bind fun p99 =>
          ((Value.orNull ofInt q.maxTokens).nullable Value.asU64).map (rustQuality q p50 p99) := by
  let v := q.modelDump
  have hquality : v.optionField "quality_score" Value.asF64 = some q.qualityScore :=
    Value.nullable_orNull_ofF64 _
  have hcost : v.optionField "cost_per_call_usd" Value.asF64 = some q.costPerCallUsd :=
    Value.nullable_orNull_ofF64 _
  have hstreaming : v.field "supports_streaming" Value.asBool = some q.supportsStreaming := rfl
  have hclaim : v.defaultField "claim_type" .selfClaimed
      (Value.asUnitVariant DelegateIdentity.ClaimType.ofWireName) = some q.claimType :=
    DelegateIdentity.ClaimType.ofWireName_wireName _
  have hp50 : v.optionField "latency_p50_ms" Value.asU64 =
      (Value.orNull ofInt q.latencyP50Ms).nullable Value.asU64 := rfl
  have hp99 : v.optionField "latency_p99_ms" Value.asU64 =
      (Value.orNull ofInt q.latencyP99Ms).nullable Value.asU64 := rfl
  have htokens : v.optionField "max_tokens" Value.asU64 =
      (Value.orNull ofInt q.maxTokens).nullable Value.asU64 := rfl
  unfold DelegateIdentity.QualityMetrics.fromValue
  rw [hquality, hcost, hstreaming, hclaim, hp50, hp99, htokens]
  simp only [Option.bind_eq_bind, Option.bind_some, Option.pure_def, Option.map_eq_bind]
  rfl

/-- Each integer that is there is unsigned and of 64 bits. -/
structure QualityFits (q : QualityMetrics) : Prop where
  latencyP50Ms : ∀ i, q.latencyP50Ms = some i → IsU64 i
  latencyP99Ms : ∀ i, q.latencyP99Ms = some i → IsU64 i
  maxTokens : ∀ i, q.maxTokens = some i → IsU64 i

theorem fromValue_quality_isSome (q : QualityMetrics) :
    (DelegateIdentity.QualityMetrics.fromValue q.modelDump).isSome = true ↔ QualityFits q := by
  have hp50 := orNull_asU64_isSome q.latencyP50Ms
  have hp99 := orNull_asU64_isSome q.latencyP99Ms
  have htokens := orNull_asU64_isSome q.maxTokens
  have hfits : QualityFits q ↔
      ((Value.orNull ofInt q.latencyP50Ms).nullable Value.asU64).isSome = true ∧
        ((Value.orNull ofInt q.latencyP99Ms).nullable Value.asU64).isSome = true ∧
        ((Value.orNull ofInt q.maxTokens).nullable Value.asU64).isSome = true := by
    rw [hp50, hp99, htokens]
    exact ⟨fun h => ⟨h.latencyP50Ms, h.latencyP99Ms, h.maxTokens⟩, fun h => ⟨h.1, h.2.1, h.2.2⟩⟩
  rw [fromValue_quality, hfits]
  cases (Value.orNull ofInt q.latencyP50Ms).nullable Value.asU64 <;>
    cases (Value.orNull ofInt q.latencyP99Ms).nullable Value.asU64 <;> simp

theorem quality_reread {q : QualityMetrics} {read : DelegateIdentity.QualityMetrics}
    (h : DelegateIdentity.QualityMetrics.fromValue q.modelDump = some read) :
    read.toValue = q.modelDump := by
  rw [fromValue_quality, Option.bind_eq_some_iff] at h
  obtain ⟨p50, hp50, h⟩ := h
  obtain ⟨p99, hp99, h⟩ := Option.bind_eq_some_iff.mp h
  obtain ⟨maxTokens, htokens, rfl⟩ := Option.map_eq_some_iff.mp h
  unfold DelegateIdentity.QualityMetrics.toValue QualityMetrics.modelDump rustQuality
  rw [orNull_ofU64_of_read hp50, orNull_ofU64_of_read hp99, orNull_ofU64_of_read htokens]

/-- A Python capability in the Rust record, with its metrics as given. -/
def rustCapability (c : LdpCapability) (quality : Option DelegateIdentity.QualityMetrics) :
    DelegateIdentity.LdpCapability :=
  ⟨c.name, c.description, c.inputSchema.map .object, c.outputSchema.map .object, quality, c.domains⟩

theorem fromValue_capability (c : LdpCapability) :
    DelegateIdentity.LdpCapability.fromValue c.modelDump =
      ((Value.orNull QualityMetrics.modelDump c.quality).nullable
        DelegateIdentity.QualityMetrics.fromValue).map (rustCapability c) := by
  let v := c.modelDump
  have hschema (o : Option (List (String × Value))) :
      (Value.orNull .object o).nullable some = some (o.map .object) := by
    cases o <;> rfl
  have hname : v.field "name" Value.asStr = some c.name := rfl
  have hdescription : v.optionField "description" Value.asStr = some c.description :=
    Value.nullable_orNull_string _
  have hinput : v.optionField "input_schema" some = some (c.inputSchema.map .object) := hschema _
  have houtput : v.optionField "output_schema" some = some (c.outputSchema.map .object) :=
    hschema _
  have hquality : v.optionField "quality" DelegateIdentity.QualityMetrics.fromValue =
      (Value.orNull QualityMetrics.modelDump c.quality).nullable
        DelegateIdentity.QualityMetrics.fromValue := rfl
  have hdomains : v.defaultField "domains" [] (Value.asArray Value.asStr) = some c.domains :=
    Value.asArray_ofStrings _
  unfold DelegateIdentity.LdpCapability.fromValue
  rw [hname, hdescription, hinput, houtput, hquality, hdomains]
  cases (Value.orNull QualityMetrics.modelDump c.quality).nullable
    DelegateIdentity.QualityMetrics.fromValue <;> rfl

theorem fromValue_capability_isSome (c : LdpCapability) :
    (DelegateIdentity.LdpCapability.fromValue c.modelDump).isSome = true ↔
      ∀ q, c.quality = some q → QualityFits q := by
  rw [fromValue_capability, Option.isSome_map]
  cases c.quality with
  | none => simp [Value.orNull]
  | some q =>
      have hq := fromValue_quality_isSome q
      simpa [Value.orNull, isNull_modelDump] using hq

theorem capability_reread {c : LdpCapability} {read : DelegateIdentity.LdpCapability}
    (h : DelegateIdentity.LdpCapability.fromValue c.modelDump = some read) :
    read.toValue = c.modelDump := by
  rw [fromValue_capability] at h
  obtain ⟨quality, hquality, rfl⟩ := Option.map_eq_some_iff.mp h
  have hquality : Value.orNull DelegateIdentity.QualityMetrics.toValue quality =
      Value.orNull QualityMetrics.modelDump c.quality :=
    Value.orNull_eq_of_nullable isNull_modelDump (fun _ _ => quality_reread) hquality
  have hschema (o : Option (List (String × Value))) :
      Value.orNull id (o.map .object) = Value.orNull .object o := by
    cases o <;> rfl
  unfold DelegateIdentity.LdpCapability.toValue LdpCapability.modelDump rustCapability
  rw [hschema, hschema, hquality]

/-- A Python card in the Rust record, with its window and its capabilities as given. -/
def rustCard (identity : LdpIdentityCard) (contextWindow : UInt64)
    (capabilities : List DelegateIdentity.LdpCapability) : DelegateIdentity.LdpIdentityCard where
  delegateId := identity.delegateId
  name := identity.name
  description := identity.description
  modelFamily := identity.modelFamily
  modelVersion := identity.modelVersion
  weightsFingerprint := identity.weightsFingerprint
  trustDomain := identity.trustDomain
  contextWindow := contextWindow
  reasoningProfile := identity.reasoningProfile
  costProfile := identity.costProfile
  latencyProfile := identity.latencyProfile
  jurisdiction := identity.jurisdiction
  capabilities := capabilities
  supportedPayloadModes := identity.supportedPayloadModes
  endpoint := identity.endpoint
  metadata := identity.metadata

theorem fromValue_rustCard (identity : LdpIdentityCard) :
    DelegateIdentity.LdpIdentityCard.fromValue identity.modelDump =
      (ofInt identity.contextWindow).asU64.bind fun window =>
        ((Value.array (identity.capabilities.map LdpCapability.modelDump)).asArray
          DelegateIdentity.LdpCapability.fromValue).map (rustCard identity window) := by
  let v := identity.modelDump
  have hid : v.field "delegate_id" Value.asStr = some identity.delegateId := rfl
  have hname : v.field "name" Value.asStr = some identity.name := rfl
  have hdescription : v.optionField "description" Value.asStr = some identity.description :=
    Value.nullable_orNull_string _
  have hfamily : v.field "model_family" Value.asStr = some identity.modelFamily := rfl
  have hversion : v.field "model_version" Value.asStr = some identity.modelVersion := rfl
  have hweights : v.optionField "weights_fingerprint" Value.asStr =
      some identity.weightsFingerprint := Value.nullable_orNull_string _
  have hdomain : v.field "trust_domain" DelegateIdentity.TrustDomain.fromValue =
      some identity.trustDomain := DelegateIdentity.TrustDomain.fromValue_toValue _
  have hcontext : v.field "context_window" Value.asU64 = (ofInt identity.contextWindow).asU64 := by
    have hget : v.get "context_window" = some (ofInt identity.contextWindow) := rfl
    rw [Value.field, hget, Option.bind_some]
  have hreasoning : v.optionField "reasoning_profile" Value.asStr =
      some identity.reasoningProfile := Value.nullable_orNull_string _
  have hcost : v.optionField "cost_profile" Value.asStr = some identity.costProfile :=
    Value.nullable_orNull_string _
  have hlatency : v.optionField "latency_profile" Value.asStr = some identity.latencyProfile :=
    Value.nullable_orNull_string _
  have hjurisdiction : v.optionField "jurisdiction" Value.asStr = some identity.jurisdiction :=
    Value.nullable_orNull_string _
  have hcapabilities : v.field "capabilities"
      (Value.asArray DelegateIdentity.LdpCapability.fromValue) =
        (Value.array (identity.capabilities.map LdpCapability.modelDump)).asArray
          DelegateIdentity.LdpCapability.fromValue := rfl
  have hmodes : v.field "supported_payload_modes" (Value.asArray PayloadMode.fromValue) =
      some identity.supportedPayloadModes := PayloadMode.asArray_fromValue _
  have hendpoint : v.field "endpoint" Value.asStr = some identity.endpoint := rfl
  have hmetadata : v.defaultField "metadata" [] Value.asStringMap = some identity.metadata :=
    Value.asStringMap_ofStringMap _
  unfold DelegateIdentity.LdpIdentityCard.fromValue
  rw [hid, hname, hdescription, hfamily, hversion, hweights, hdomain, hcontext, hreasoning, hcost,
    hlatency, hjurisdiction, hcapabilities, hmodes, hendpoint, hmetadata]
  simp only [Option.bind_eq_bind, Option.bind_some, Option.pure_def, Option.map_eq_bind]
  rfl

/-- The Python card has only integers that the Rust SDK has a type for. -/
structure Fits (identity : LdpIdentityCard) : Prop where
  contextWindow : IsU64 identity.contextWindow
  quality : ∀ c ∈ identity.capabilities, ∀ q, c.quality = some q → QualityFits q

theorem fromValue_rustCard_isSome (identity : LdpIdentityCard) :
    (DelegateIdentity.LdpIdentityCard.fromValue identity.modelDump).isSome = true ↔
      Fits identity := by
  have hwindow := asU64_ofInt_isSome identity.contextWindow
  have hcapabilities := Value.asArray_isSome LdpCapability.modelDump
    DelegateIdentity.LdpCapability.fromValue identity.capabilities
  simp only [fromValue_capability_isSome] at hcapabilities
  have hfits : Fits identity ↔ (ofInt identity.contextWindow).asU64.isSome = true ∧
      ((Value.array (identity.capabilities.map LdpCapability.modelDump)).asArray
        DelegateIdentity.LdpCapability.fromValue).isSome = true := by
    rw [hwindow, hcapabilities]
    exact ⟨fun h => ⟨h.contextWindow, h.quality⟩, fun h => ⟨h.1, h.2⟩⟩
  rw [fromValue_rustCard, hfits]
  cases (ofInt identity.contextWindow).asU64 <;> simp

/-- What the Rust SDK reads of a Python card, it writes as it stood there. -/
theorem card_reread {identity : LdpIdentityCard} {card : DelegateIdentity.LdpIdentityCard}
    (h : DelegateIdentity.LdpIdentityCard.fromValue identity.modelDump = some card) :
    card.toValue = identity.modelDump := by
  rw [fromValue_rustCard, Option.bind_eq_some_iff] at h
  obtain ⟨window, hwindow, h⟩ := h
  obtain ⟨capabilities, hcapabilities, rfl⟩ := Option.map_eq_some_iff.mp h
  have hcapabilities : capabilities.map DelegateIdentity.LdpCapability.toValue =
      identity.capabilities.map LdpCapability.modelDump :=
    Value.map_eq_of_asArray (fun _ _ => capability_reread) hcapabilities
  unfold LdpIdentityCard.modelDump DelegateIdentity.LdpIdentityCard.toValue rustCard
  rw [hcapabilities, ofU64_of_asU64 hwindow]

end PythonToRust

/-- A card of either SDK that the other one reads is written there as the very same
document, so that it comes back as it was; and which cards are read. -/
theorem cards_exchanged (card : DelegateIdentity.LdpIdentityCard) (identity : LdpIdentityCard) :
    (LdpIdentityCard.modelValidate card.toValue = some identity →
      identity.modelDump = card.toValue ∧
        DelegateIdentity.LdpIdentityCard.fromValue identity.modelDump = some card.normalized) ∧
    (DelegateIdentity.LdpIdentityCard.fromValue identity.modelDump = some card →
      card.toValue = identity.modelDump ∧ (isBlank identity.trustDomain.name = false →
        LdpIdentityCard.modelValidate card.toValue = some identity)) ∧
    ((LdpIdentityCard.modelValidate card.toValue).isSome = true ↔ Readable card) ∧
    ((DelegateIdentity.LdpIdentityCard.fromValue identity.modelDump).isSome = true ↔
      Fits identity) := by
  refine ⟨?_, ?_, modelValidate_card card, fromValue_rustCard_isSome identity⟩
  · intro h
    have hsame := card_rewritten h
    exact ⟨hsame, hsame ▸ card.fromValue_toValue⟩
  · intro h
    have hsame := card_reread h
    refine ⟨hsame, fun hname => ?_⟩
    rw [hsame, card_kept, hname]
    rfl

end LdpProtocol.CardExchange
