import LdpProtocol.PythonMessages
import LdpProtocol.WireFormat

/-!
# The JSON of Python messages

`modelDump` writes every field, missing ones as `null`. `modelValidate` reads a
field of the declared JSON type; what pydantic coerces from another type is
refused here, and no message of either SDK needs it. Defaults that a factory
makes come as an argument.
-/
namespace LdpProtocol.PythonMessages
open JsonValues PayloadModes DelegateIdentity
open MessageTypes (FailureCategory ErrorSeverity FailurePolicy VerificationStatus EvidenceRef
  ProvenanceEntry)

/-- What the default factories give when a field is absent. -/
structure Factories where
  messageId : String
  timestamp : String
  contractId : String
  createdAt : String
  producedAt : String

/-- An enumeration member is read from its value. -/
def asEnum {α : Type} (ofName : String → Option α) (v : Value) : Option α := v.asStr.bind ofName

def asMode : Value → Option PayloadMode := asEnum PayloadMode.ofWireName

def ofInt (i : ℤ) : Value := .number (.int i)

@[simp] theorem asMode_toValue (m : PayloadMode) : asMode m.toValue = some m :=
  PayloadMode.ofWireName_wireName m

/-- A field declared `Any`, where absent is `None`. -/
def anyField (v : Value) (key : String) : Value := (v.get key).getD .null

namespace LdpError

def modelDump (e : LdpError) : Value := .object
  [("code", .string e.code), ("category", .string e.category.wireName),
    ("message", .string e.message), ("severity", .string e.severity.wireName),
    ("retryable", .bool e.retryable), ("partial_output", e.partialOutput)]

def modelValidate (v : Value) : Option LdpError := do
  let code ← v.field "code" Value.asStr
  let category ← v.field "category" (asEnum FailureCategory.ofWireName)
  let message ← v.field "message" Value.asStr
  let severity ← v.field "severity" (asEnum ErrorSeverity.ofWireName)
  let retryable ← v.field "retryable" Value.asBool
  pure ⟨code, category, message, severity, retryable, anyField v "partial_output"⟩

end LdpError

def EvidenceRef.modelDump (e : EvidenceRef) : Value := .object
  [("source", .string e.source), ("kind", .string e.kind),
    ("uri", Value.orNull .string e.uri), ("summary", Value.orNull .string e.summary)]

def EvidenceRef.modelValidate (v : Value) : Option EvidenceRef := do
  let source ← v.field "source" Value.asStr
  let kind ← v.field "kind" Value.asStr
  let uri ← v.optionField "uri" Value.asStr
  let summary ← v.optionField "summary" Value.asStr
  pure ⟨source, kind, uri, summary⟩

def ProvenanceEntry.modelDump (e : ProvenanceEntry) : Value := .object
  [("delegate_id", .string e.delegateId), ("model_version", .string e.modelVersion),
    ("step", .string e.step), ("timestamp", Value.orNull .string e.timestamp),
    ("verification_status", .string e.verificationStatus.wireName)]

def ProvenanceEntry.modelValidate (v : Value) : Option ProvenanceEntry := do
  let delegateId ← v.field "delegate_id" Value.asStr
  let modelVersion ← v.field "model_version" Value.asStr
  let step ← v.field "step" Value.asStr
  let timestamp ← v.optionField "timestamp" Value.asStr
  let verificationStatus ← v.defaultField "verification_status" .unverified
    (asEnum VerificationStatus.ofWireName)
  pure ⟨delegateId, modelVersion, step, timestamp, verificationStatus⟩

namespace Provenance

def modelDump (p : Provenance) : Value := .object
  [("produced_by", .string p.producedBy), ("model_version", .string p.modelVersion),
    ("payload_mode_used", p.payloadModeUsed.toValue),
    ("confidence", Value.orNull Value.ofF64 p.confidence), ("verified", .bool p.verified),
    ("session_id", Value.orNull .string p.sessionId),
    ("timestamp", Value.orNull .string p.timestamp),
    ("tokens_used", Value.orNull ofInt p.tokensUsed),
    ("cost_usd", Value.orNull Value.ofF64 p.costUsd),
    ("contract_id", Value.orNull .string p.contractId),
    ("contract_satisfied", Value.orNull .bool p.contractSatisfied),
    ("contract_violations", .ofStrings p.contractViolations),
    ("verification_status", .string p.verificationStatus.wireName),
    ("evidence", .array (p.evidence.map EvidenceRef.modelDump)),
    ("lineage", .array (p.lineage.map ProvenanceEntry.modelDump))]

def modelValidate (made : Factories) (v : Value) : Option Provenance := do
  let producedBy ← v.field "produced_by" Value.asStr
  let modelVersion ← v.field "model_version" Value.asStr
  let payloadModeUsed ← v.defaultField "payload_mode_used" .semanticFrame asMode
  let confidence ← v.optionField "confidence" Value.asF64
  let verified ← v.defaultField "verified" false Value.asBool
  let sessionId ← v.optionField "session_id" Value.asStr
  let timestamp ← v.defaultField "timestamp" (some made.producedAt) (Value.nullable Value.asStr)
  let tokensUsed ← v.optionField "tokens_used" Value.asInt
  let costUsd ← v.optionField "cost_usd" Value.asF64
  let contractId ← v.optionField "contract_id" Value.asStr
  let contractSatisfied ← v.optionField "contract_satisfied" Value.asBool
  let contractViolations ← v.defaultField "contract_violations" [] (Value.asArray Value.asStr)
  let verificationStatus ← v.defaultField "verification_status" .unverified
    (asEnum VerificationStatus.ofWireName)
  let evidence ← v.defaultField "evidence" [] (Value.asArray EvidenceRef.modelValidate)
  let lineage ← v.defaultField "lineage" [] (Value.asArray ProvenanceEntry.modelValidate)
  pure (normalize ⟨producedBy, modelVersion, payloadModeUsed, confidence, verified, sessionId,
    timestamp, tokensUsed, costUsd, contractId, contractSatisfied, contractViolations,
    verificationStatus, evidence, lineage⟩)

end Provenance

namespace BudgetPolicy

def modelDump (b : BudgetPolicy) : Value := .object
  [("max_tokens", Value.orNull ofInt b.maxTokens),
    ("max_cost_usd", Value.orNull Value.ofF64 b.maxCostUsd)]

def modelValidate (v : Value) : Option BudgetPolicy := do
  let _ ← v.asObject
  let maxTokens ← v.optionField "max_tokens" Value.asInt
  let maxCostUsd ← v.optionField "max_cost_usd" Value.asF64
  pure ⟨maxTokens, maxCostUsd⟩

end BudgetPolicy

namespace PolicyEnvelope

def modelDump (p : PolicyEnvelope) : Value := .object
  [("failure_policy", .string p.failurePolicy.wireName),
    ("budget", Value.orNull BudgetPolicy.modelDump p.budget),
    ("safety_constraints", .ofStrings p.safetyConstraints),
    ("max_delegation_depth", Value.orNull ofInt p.maxDelegationDepth)]

def modelValidate (v : Value) : Option PolicyEnvelope := do
  let _ ← v.asObject
  let failurePolicy ← v.defaultField "failure_policy" .failOpen (asEnum FailurePolicy.ofWireName)
  let budget ← v.optionField "budget" BudgetPolicy.modelValidate
  let safetyConstraints ← v.defaultField "safety_constraints" [] (Value.asArray Value.asStr)
  let maxDelegationDepth ← v.optionField "max_delegation_depth" Value.asInt
  pure ⟨failurePolicy, budget, safetyConstraints, maxDelegationDepth⟩

end PolicyEnvelope

namespace DelegationContract

def modelDump (c : DelegationContract) : Value := .object
  [("contract_id", .string c.contractId), ("objective", .string c.objective),
    ("success_criteria", .ofStrings c.successCriteria), ("policy", c.policy.modelDump),
    ("deadline", Value.orNull .string c.deadline), ("created_at", .string c.createdAt)]

def modelValidate (made : Factories) (v : Value) : Option DelegationContract := do
  let contractId ← v.defaultField "contract_id" made.contractId Value.asStr
  let objective ← v.field "objective" Value.asStr
  let successCriteria ← v.defaultField "success_criteria" [] (Value.asArray Value.asStr)
  let policy ← v.defaultField "policy" {} PolicyEnvelope.modelValidate
  let deadline ← v.optionField "deadline" Value.asStr
  let createdAt ← v.defaultField "created_at" made.createdAt Value.asStr
  pure ⟨contractId, objective, successCriteria, policy, deadline, createdAt⟩

end DelegationContract

namespace ErrorField

def modelDump : ErrorField → Value
  | .text s => .string s
  | .error e => e.modelDump

def modelValidate : Value → Option ErrorField
  | .string s => some (.text s)
  | v => (LdpError.modelValidate v).map .error

end ErrorField

namespace LdpMessageBody

def modelDump (b : LdpMessageBody) : Value := .object
  [("type", .string b.type), ("delegate_id", Value.orNull .string b.delegateId),
    ("supported_modes",
      Value.orNull (fun ms => .array (ms.map PayloadMode.toValue)) b.supportedModes),
    ("capabilities", b.capabilities), ("config", Value.orNull .object b.config),
    ("session_id", Value.orNull .string b.sessionId),
    ("negotiated_mode", Value.orNull PayloadMode.toValue b.negotiatedMode),
    ("reason", Value.orNull .string b.reason), ("task_id", Value.orNull .string b.taskId),
    ("skill", Value.orNull .string b.skill), ("input", b.input),
    ("contract", Value.orNull DelegationContract.modelDump b.contract),
    ("progress", Value.orNull Value.ofF64 b.progress),
    ("message", Value.orNull .string b.message), ("output", b.output),
    ("provenance", Value.orNull Provenance.modelDump b.provenance),
    ("error", Value.orNull ErrorField.modelDump b.error), ("claim", b.claim),
    ("evidence", b.evidence)]

def modelValidate (made : Factories) (v : Value) : Option LdpMessageBody := do
  let type ← v.field "type" Value.asStr
  let delegateId ← v.optionField "delegate_id" Value.asStr
  let supportedModes ← v.optionField "supported_modes" (Value.asArray asMode)
  let config ← v.optionField "config" Value.asObject
  let sessionId ← v.optionField "session_id" Value.asStr
  let negotiatedMode ← v.optionField "negotiated_mode" asMode
  let reason ← v.optionField "reason" Value.asStr
  let taskId ← v.optionField "task_id" Value.asStr
  let skill ← v.optionField "skill" Value.asStr
  let contract ← v.optionField "contract" (DelegationContract.modelValidate made)
  let progress ← v.optionField "progress" Value.asF64
  let message ← v.optionField "message" Value.asStr
  let provenance ← v.optionField "provenance" (Provenance.modelValidate made)
  let error ← v.optionField "error" ErrorField.modelValidate
  pure ⟨type, delegateId, supportedModes, anyField v "capabilities", config, sessionId,
    negotiatedMode, reason, taskId, skill, anyField v "input", contract, progress, message,
    anyField v "output", provenance, error, anyField v "claim", anyField v "evidence"⟩

/-- The members of a document a validated body has its fields from, for the
fields that are signed or that a handler looks at. -/
structure ValidatedFrom (v : Value) (b : LdpMessageBody) : Prop where
  type : v.field "type" Value.asStr = some b.type
  delegateId : v.optionField "delegate_id" Value.asStr = some b.delegateId
  config : v.optionField "config" Value.asObject = some b.config
  sessionId : v.optionField "session_id" Value.asStr = some b.sessionId
  negotiatedMode : v.optionField "negotiated_mode" asMode = some b.negotiatedMode
  reason : v.optionField "reason" Value.asStr = some b.reason
  taskId : v.optionField "task_id" Value.asStr = some b.taskId
  skill : v.optionField "skill" Value.asStr = some b.skill

theorem validatedFrom_of_modelValidate {made : Factories} {v : Value} {b : LdpMessageBody}
    (h : modelValidate made v = some b) : ValidatedFrom v b := by
  unfold modelValidate at h
  obtain ⟨type, htype, h⟩ := Option.bind_eq_some_iff.mp h
  obtain ⟨delegateId, hdelegate, h⟩ := Option.bind_eq_some_iff.mp h
  obtain ⟨supportedModes, _, h⟩ := Option.bind_eq_some_iff.mp h
  obtain ⟨config, hconfig, h⟩ := Option.bind_eq_some_iff.mp h
  obtain ⟨sessionId, hsession, h⟩ := Option.bind_eq_some_iff.mp h
  obtain ⟨negotiatedMode, hmode, h⟩ := Option.bind_eq_some_iff.mp h
  obtain ⟨reason, hreason, h⟩ := Option.bind_eq_some_iff.mp h
  obtain ⟨taskId, htask, h⟩ := Option.bind_eq_some_iff.mp h
  obtain ⟨skill, hskill, h⟩ := Option.bind_eq_some_iff.mp h
  obtain ⟨contract, _, h⟩ := Option.bind_eq_some_iff.mp h
  obtain ⟨progress, _, h⟩ := Option.bind_eq_some_iff.mp h
  obtain ⟨message, _, h⟩ := Option.bind_eq_some_iff.mp h
  obtain ⟨provenance, _, h⟩ := Option.bind_eq_some_iff.mp h
  obtain ⟨error, _, h⟩ := Option.bind_eq_some_iff.mp h
  cases h
  exact ⟨htype, hdelegate, hconfig, hsession, hmode, hreason, htask, hskill⟩

end LdpMessageBody

namespace LdpEnvelope

/-- `model_dump(by_alias=True)`. -/
def modelDump (e : LdpEnvelope) : Value := .object
  [("message_id", .string e.messageId), ("session_id", .string e.sessionId),
    ("from", .string e.from_), ("to", .string e.to_), ("body", e.body.modelDump),
    ("payload_mode", e.payloadMode.toValue), ("timestamp", .string e.timestamp),
    ("provenance", Value.orNull Provenance.modelDump e.provenance),
    ("signature", Value.orNull .string e.signature),
    ("signature_algorithm", Value.orNull .string e.signatureAlgorithm),
    ("nonce", Value.orNull .string e.nonce)]

/-- The sender is read by its alias, or by its own name where that is absent. -/
def sender (v : Value) : Option String :=
  match v.get "from" with
  | some w => w.asStr
  | none => v.defaultField "from_" "" Value.asStr

def modelValidate (made : Factories) (v : Value) : Option LdpEnvelope := do
  let messageId ← v.defaultField "message_id" made.messageId Value.asStr
  let sessionId ← v.defaultField "session_id" "" Value.asStr
  let from_ ← sender v
  let to_ ← v.defaultField "to" "" Value.asStr
  let body ← v.field "body" (LdpMessageBody.modelValidate made)
  let payloadMode ← v.defaultField "payload_mode" .text asMode
  let timestamp ← v.defaultField "timestamp" made.timestamp Value.asStr
  let provenance ← v.optionField "provenance" (Provenance.modelValidate made)
  let signature ← v.optionField "signature" Value.asStr
  let signatureAlgorithm ← v.optionField "signature_algorithm" Value.asStr
  let nonce ← v.optionField "nonce" Value.asStr
  pure ⟨messageId, sessionId, from_, to_, body, payloadMode, timestamp, provenance, signature,
    signatureAlgorithm, nonce⟩

/-- The members a validated envelope has its signed fields from. -/
structure ValidatedFrom (made : Factories) (v : Value) (e : LdpEnvelope) : Prop where
  messageId : v.defaultField "message_id" made.messageId Value.asStr = some e.messageId
  sessionId : v.defaultField "session_id" "" Value.asStr = some e.sessionId
  from_ : sender v = some e.from_
  to_ : v.defaultField "to" "" Value.asStr = some e.to_
  body : v.field "body" (LdpMessageBody.modelValidate made) = some e.body
  timestamp : v.defaultField "timestamp" made.timestamp Value.asStr = some e.timestamp
  nonce : v.optionField "nonce" Value.asStr = some e.nonce

theorem validatedFrom_of_modelValidate {made : Factories} {v : Value} {e : LdpEnvelope}
    (h : modelValidate made v = some e) : ValidatedFrom made v e := by
  unfold modelValidate at h
  obtain ⟨messageId, hmessage, h⟩ := Option.bind_eq_some_iff.mp h
  obtain ⟨sessionId, hsession, h⟩ := Option.bind_eq_some_iff.mp h
  obtain ⟨from_, hfrom, h⟩ := Option.bind_eq_some_iff.mp h
  obtain ⟨to_, hto, h⟩ := Option.bind_eq_some_iff.mp h
  obtain ⟨body, hbody, h⟩ := Option.bind_eq_some_iff.mp h
  obtain ⟨payloadMode, _, h⟩ := Option.bind_eq_some_iff.mp h
  obtain ⟨timestamp, htimestamp, h⟩ := Option.bind_eq_some_iff.mp h
  obtain ⟨provenance, _, h⟩ := Option.bind_eq_some_iff.mp h
  obtain ⟨signature, _, h⟩ := Option.bind_eq_some_iff.mp h
  obtain ⟨signatureAlgorithm, _, h⟩ := Option.bind_eq_some_iff.mp h
  obtain ⟨nonce, hnonce, h⟩ := Option.bind_eq_some_iff.mp h
  cases h
  exact ⟨hmessage, hsession, hfrom, hto, hbody, htimestamp, hnonce⟩

end LdpEnvelope
end LdpProtocol.PythonMessages
