import LdpProtocol.ExactFloats
import LdpProtocol.PythonWire

/-!
# Python identity cards and negotiation

The card as the Python SDK declares it, its validation, and the modes it
advertises. Which modes have a codec is state of the process: the registry is
an argument wherever it is consulted. Negotiation does not consult it. Scores and
costs are finite.
-/
namespace LdpProtocol.PythonIdentity
open JsonValues PayloadModes PythonMessages ExactFloats
open DelegateIdentity (TrustDomain ClaimType)

/-- Whether a codec for this mode is available in the process. -/
def isImplemented (registered : List PayloadMode) (m : PayloadMode) : Bool :=
  [PayloadMode.text, .semanticFrame].contains m || registered.contains m

/-- The modes of the chain are also the ones already seen. -/
def chainStep (agreed : PayloadMode) (responderPrefs chain : List PayloadMode)
    (mode : PayloadMode) : List PayloadMode :=
  if mode ≠ agreed ∧ mode ∉ chain ∧ mode ∈ responderPrefs ∧
      mode.modeNumber < agreed.modeNumber then chain ++ [mode] else chain

def negotiatePayloadMode (initiatorPrefs responderPrefs : List PayloadMode) :
    NegotiatedPayload :=
  let agreed := (initiatorPrefs.find? fun mode => responderPrefs.contains mode).getD .text
  ⟨agreed, initiatorPrefs.foldl (chainStep agreed responderPrefs) []⟩

theorem negotiatePayloadMode_mode (initiatorPrefs responderPrefs : List PayloadMode) :
    (negotiatePayloadMode initiatorPrefs responderPrefs).mode =
      agreedMode (fun _ => true) initiatorPrefs responderPrefs := by
  simp [negotiatePayloadMode, agreedMode]

structure QualityMetrics where
  qualityScore : Option ℚ := none
  latencyP50Ms : Option ℤ := none
  latencyP99Ms : Option ℤ := none
  costPerCallUsd : Option ℚ := none
  maxTokens : Option ℤ := none
  supportsStreaming : Bool := false
  claimType : ClaimType := .selfClaimed

structure LdpCapability where
  name : String
  description : Option String := none
  inputSchema : Option (List (String × Value)) := none
  outputSchema : Option (List (String × Value)) := none
  quality : Option QualityMetrics := none
  domains : List String := []

structure LdpIdentityCard where
  delegateId : String
  name : String
  description : Option String := none
  modelFamily : String
  modelVersion : String
  weightsFingerprint : Option String := none
  trustDomain : TrustDomain
  contextWindow : ℤ
  reasoningProfile : Option String := none
  costProfile : Option String := none
  latencyProfile : Option String := none
  jurisdiction : Option String := none
  capabilities : List LdpCapability := []
  supportedPayloadModes : List PayloadMode := [.semanticFrame, .text]
  endpoint : String := ""
  metadata : List (String × String) := []

namespace LdpIdentityCard
variable (card : LdpIdentityCard) (skill : String)

/-- The first capability of this name. -/
def capability (name : String) : Option LdpCapability :=
  card.capabilities.find? fun cap => decide (cap.name = name)

def metrics : Option QualityMetrics := (card.capability skill).bind LdpCapability.quality

def qualityScore : ℚ := ((card.metrics skill).bind QualityMetrics.qualityScore).getD 0

def costPerCall : Option ℚ := (card.metrics skill).bind QualityMetrics.costPerCallUsd

/-- The cost per call, or infinity if not found. -/
def cost : ExactFloat :=
  match card.costPerCall skill with
  | some usd => .finite usd
  | none => .posInf

def latency : ℤ := ((card.metrics skill).bind QualityMetrics.latencyP50Ms).getD (2 ^ 31)

end LdpIdentityCard

/-- Declared payload modes whose codec is available in the process. -/
def LdpIdentityCard.advertisedPayloadModes (registered : List PayloadMode)
    (card : LdpIdentityCard) : List PayloadMode :=
  card.supportedPayloadModes.filter (isImplemented registered)

/-- Code points that `str.strip` removes. -/
def isSpace (c : Char) : Bool :=
  let n := c.toNat
  (9 ≤ n && n ≤ 13) || (28 ≤ n && n ≤ 32) || n == 0x85 || n == 0xa0 || n == 0x1680 ||
    (0x2000 ≤ n && n ≤ 0x200a) || n == 0x2028 || n == 0x2029 || n == 0x202f || n == 0x205f ||
    n == 0x3000

def isBlank (s : String) : Bool := s.toList.all isSpace

def validateTrustDomain (v : Value) : Option TrustDomain := do
  let name ← v.field "name" fun w => w.asStr.filter fun s => !isBlank s
  let allowCrossDomain ← v.defaultField "allow_cross_domain" false Value.asBool
  let trustedPeers ← v.defaultField "trusted_peers" [] (Value.asArray Value.asStr)
  pure ⟨name, allowCrossDomain, trustedPeers⟩

def claimTypeOfName : String → Option ClaimType
  | "self_claimed" => some .selfClaimed
  | "issuer_attested" => some .issuerAttested
  | "runtime_observed" => some .runtimeObserved
  | "externally_benchmarked" => some .externallyBenchmarked
  | _ => none

def QualityMetrics.modelDump (q : QualityMetrics) : Value := .object
  [("quality_score", Value.orNull Value.ofF64 q.qualityScore),
    ("latency_p50_ms", Value.orNull ofInt q.latencyP50Ms),
    ("latency_p99_ms", Value.orNull ofInt q.latencyP99Ms),
    ("cost_per_call_usd", Value.orNull Value.ofF64 q.costPerCallUsd),
    ("max_tokens", Value.orNull ofInt q.maxTokens),
    ("supports_streaming", .bool q.supportsStreaming),
    ("claim_type", .string q.claimType.wireName)]

def QualityMetrics.modelValidate (v : Value) : Option QualityMetrics := do
  let _ ← v.asObject
  let qualityScore ← v.optionField "quality_score" Value.asF64
  let latencyP50Ms ← v.optionField "latency_p50_ms" Value.asInt
  let latencyP99Ms ← v.optionField "latency_p99_ms" Value.asInt
  let costPerCallUsd ← v.optionField "cost_per_call_usd" Value.asF64
  let maxTokens ← v.optionField "max_tokens" Value.asInt
  let supportsStreaming ← v.defaultField "supports_streaming" false Value.asBool
  let claimType ← v.defaultField "claim_type" .selfClaimed (asEnum claimTypeOfName)
  pure ⟨qualityScore, latencyP50Ms, latencyP99Ms, costPerCallUsd, maxTokens, supportsStreaming,
    claimType⟩

def LdpCapability.modelDump (c : LdpCapability) : Value := .object
  [("name", .string c.name), ("description", Value.orNull .string c.description),
    ("input_schema", Value.orNull .object c.inputSchema),
    ("output_schema", Value.orNull .object c.outputSchema),
    ("quality", Value.orNull QualityMetrics.modelDump c.quality),
    ("domains", .ofStrings c.domains)]

def LdpCapability.modelValidate (v : Value) : Option LdpCapability := do
  let name ← v.field "name" Value.asStr
  let description ← v.optionField "description" Value.asStr
  let inputSchema ← v.optionField "input_schema" Value.asObject
  let outputSchema ← v.optionField "output_schema" Value.asObject
  let quality ← v.optionField "quality" QualityMetrics.modelValidate
  let domains ← v.defaultField "domains" [] (Value.asArray Value.asStr)
  pure ⟨name, description, inputSchema, outputSchema, quality, domains⟩

def LdpIdentityCard.modelDump (card : LdpIdentityCard) : Value := .object
  [("delegate_id", .string card.delegateId), ("name", .string card.name),
    ("description", Value.orNull .string card.description),
    ("model_family", .string card.modelFamily), ("model_version", .string card.modelVersion),
    ("weights_fingerprint", Value.orNull .string card.weightsFingerprint),
    ("trust_domain", card.trustDomain.toValue), ("context_window", ofInt card.contextWindow),
    ("reasoning_profile", Value.orNull .string card.reasoningProfile),
    ("cost_profile", Value.orNull .string card.costProfile),
    ("latency_profile", Value.orNull .string card.latencyProfile),
    ("jurisdiction", Value.orNull .string card.jurisdiction),
    ("capabilities", .array (card.capabilities.map LdpCapability.modelDump)),
    ("supported_payload_modes", .array (card.supportedPayloadModes.map PayloadMode.toValue)),
    ("endpoint", .string card.endpoint), ("metadata", .ofStringMap card.metadata)]

def LdpIdentityCard.modelValidate (v : Value) : Option LdpIdentityCard := do
  let delegateId ← v.field "delegate_id" Value.asStr
  let name ← v.field "name" Value.asStr
  let description ← v.optionField "description" Value.asStr
  let modelFamily ← v.field "model_family" Value.asStr
  let modelVersion ← v.field "model_version" Value.asStr
  let weightsFingerprint ← v.optionField "weights_fingerprint" Value.asStr
  let trustDomain ← v.field "trust_domain" validateTrustDomain
  let contextWindow ← v.field "context_window" Value.asInt
  let reasoningProfile ← v.optionField "reasoning_profile" Value.asStr
  let costProfile ← v.optionField "cost_profile" Value.asStr
  let latencyProfile ← v.optionField "latency_profile" Value.asStr
  let jurisdiction ← v.optionField "jurisdiction" Value.asStr
  let capabilities ← v.defaultField "capabilities" [] (Value.asArray LdpCapability.modelValidate)
  let supportedPayloadModes ← v.defaultField "supported_payload_modes" [.semanticFrame, .text]
    (Value.asArray asMode)
  let endpoint ← v.defaultField "endpoint" "" Value.asStr
  let metadata ← v.defaultField "metadata" [] Value.asStringMap
  pure ⟨delegateId, name, description, modelFamily, modelVersion, weightsFingerprint, trustDomain,
    contextWindow, reasoningProfile, costProfile, latencyProfile, jurisdiction, capabilities,
    supportedPayloadModes, endpoint, metadata⟩

end LdpProtocol.PythonIdentity
