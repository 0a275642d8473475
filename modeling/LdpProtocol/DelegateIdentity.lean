import LdpProtocol.PayloadModes

/-!
# Trust domains and identity cards

The Rust identity card with its capabilities and trust domain, and the JSON
they are served as. A trust domain read from JSON or built field by field is
not checked for an empty name; only `TrustDomain::new` asserts that. Scores and
costs are finite and read exactly.
-/
namespace LdpProtocol.DelegateIdentity
open JsonValues PayloadModes

/-- A trust domain: a named security boundary for delegates. -/
structure TrustDomain where
  name : String
  allowCrossDomain : Bool := false
  trustedPeers : List String := []
  deriving DecidableEq, Repr

/-- Check if this domain trusts a peer domain. -/
def TrustDomain.trusts (d : TrustDomain) (peer : String) : Bool :=
  if d.name = peer then true else d.allowCrossDomain && d.trustedPeers.contains peer

def TrustDomain.mutuallyTrusts (d peer : TrustDomain) : Bool :=
  d.trusts peer.name && peer.trusts d.name

theorem TrustDomain.trusts_self (d : TrustDomain) : d.trusts d.name = true := by
  simp [TrustDomain.trusts]

/-- How a quality claim was established. -/
inductive ClaimType where
  | selfClaimed
  | issuerAttested
  | runtimeObserved
  | externallyBenchmarked
  deriving DecidableEq, Repr

namespace ClaimType

def wireName : ClaimType → String
  | .selfClaimed => "self_claimed"
  | .issuerAttested => "issuer_attested"
  | .runtimeObserved => "runtime_observed"
  | .externallyBenchmarked => "externally_benchmarked"

end ClaimType

structure QualityMetrics where
  qualityScore : Option ℚ := none
  latencyP50Ms : Option UInt64 := none
  latencyP99Ms : Option UInt64 := none
  costPerCallUsd : Option ℚ := none
  maxTokens : Option UInt64 := none
  supportsStreaming : Bool := false
  claimType : ClaimType := .selfClaimed

/-- An LDP capability: a skill with quality, latency and cost metadata. -/
structure LdpCapability where
  name : String
  description : Option String := none
  inputSchema : Option Value := none
  outputSchema : Option Value := none
  quality : Option QualityMetrics := none
  domains : List String := []

structure LdpIdentityCard where
  delegateId : String
  name : String
  description : Option String := none
  modelFamily : String
  modelVersion : String
  weightsFingerprint : Option String := none
  trustDomain : TrustDomain
  contextWindow : UInt64
  reasoningProfile : Option String := none
  costProfile : Option String := none
  latencyProfile : Option String := none
  jurisdiction : Option String := none
  capabilities : List LdpCapability
  supportedPayloadModes : List PayloadMode
  endpoint : String
  metadata : List (String × String) := []

def TrustDomain.toValue (d : TrustDomain) : Value := .object
  [("name", .string d.name), ("allow_cross_domain", .bool d.allowCrossDomain),
    ("trusted_peers", .ofStrings d.trustedPeers)]

def QualityMetrics.toValue (q : QualityMetrics) : Value := .object
  [("quality_score", Value.orNull Value.ofF64 q.qualityScore),
    ("latency_p50_ms", Value.orNull Value.ofU64 q.latencyP50Ms),
    ("latency_p99_ms", Value.orNull Value.ofU64 q.latencyP99Ms),
    ("cost_per_call_usd", Value.orNull Value.ofF64 q.costPerCallUsd),
    ("max_tokens", Value.orNull Value.ofU64 q.maxTokens),
    ("supports_streaming", .bool q.supportsStreaming),
    ("claim_type", .string q.claimType.wireName)]

def LdpCapability.toValue (c : LdpCapability) : Value := .object
  [("name", .string c.name), ("description", Value.orNull .string c.description),
    ("input_schema", Value.orNull id c.inputSchema),
    ("output_schema", Value.orNull id c.outputSchema),
    ("quality", Value.orNull QualityMetrics.toValue c.quality),
    ("domains", .ofStrings c.domains)]

def LdpIdentityCard.toValue (c : LdpIdentityCard) : Value := .object
  [("delegate_id", .string c.delegateId), ("name", .string c.name),
    ("description", Value.orNull .string c.description),
    ("model_family", .string c.modelFamily), ("model_version", .string c.modelVersion),
    ("weights_fingerprint", Value.orNull .string c.weightsFingerprint),
    ("trust_domain", c.trustDomain.toValue), ("context_window", .ofU64 c.contextWindow),
    ("reasoning_profile", Value.orNull .string c.reasoningProfile),
    ("cost_profile", Value.orNull .string c.costProfile),
    ("latency_profile", Value.orNull .string c.latencyProfile),
    ("jurisdiction", Value.orNull .string c.jurisdiction),
    ("capabilities", .array (c.capabilities.map LdpCapability.toValue)),
    ("supported_payload_modes", .array (c.supportedPayloadModes.map PayloadMode.toValue)),
    ("endpoint", .string c.endpoint), ("metadata", .ofStringMap c.metadata)]

end LdpProtocol.DelegateIdentity
