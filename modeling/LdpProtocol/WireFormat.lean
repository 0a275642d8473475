import LdpProtocol.MessageTypes

/-!
# The JSON of Rust messages

Serialization and deserialization of the envelope as serde derives them: the
body is an object tagged by `type`, optional fields are nulls unless the source
skips them, and unknown members are ignored. Reading back what was written
gives the same envelope, except that a partial output of `null` is read as
absent.
-/
namespace LdpProtocol.MessageTypes
open JsonValues PayloadModes DelegateIdentity

namespace FailureCategory

def wireName : FailureCategory → String
  | .identity => "identity"
  | .capability => "capability"
  | .policy => "policy"
  | .runtime => "runtime"
  | .quality => "quality"
  | .session => "session"
  | .transport => "transport"
  | .security => "security"

def ofWireName : String → Option FailureCategory
  | "identity" => some .identity
  | "capability" => some .capability
  | "policy" => some .policy
  | "runtime" => some .runtime
  | "quality" => some .quality
  | "session" => some .session
  | "transport" => some .transport
  | "security" => some .security
  | _ => none

@[simp] theorem ofWireName_wireName (c : FailureCategory) :
    ofWireName c.wireName = some c := by
  cases c <;> rfl

end FailureCategory

namespace ErrorSeverity

def wireName : ErrorSeverity → String
  | .warning => "warning"
  | .error => "error"
  | .fatal => "fatal"

def ofWireName : String → Option ErrorSeverity
  | "warning" => some .warning
  | "error" => some .error
  | "fatal" => some .fatal
  | _ => none

@[simp] theorem ofWireName_wireName (s : ErrorSeverity) : ofWireName s.wireName = some s := by
  cases s <;> rfl

end ErrorSeverity

namespace FailurePolicy

def wireName : FailurePolicy → String
  | .failClosed => "fail_closed"
  | .failOpen => "fail_open"

def ofWireName : String → Option FailurePolicy
  | "fail_closed" => some .failClosed
  | "fail_open" => some .failOpen
  | _ => none

@[simp] theorem ofWireName_wireName (p : FailurePolicy) : ofWireName p.wireName = some p := by
  cases p <;> rfl

end FailurePolicy

namespace VerificationStatus

def wireName : VerificationStatus → String
  | .unverified => "unverified"
  | .selfVerified => "self_verified"
  | .peerVerified => "peer_verified"
  | .toolVerified => "tool_verified"
  | .humanVerified => "human_verified"

def ofWireName : String → Option VerificationStatus
  | "unverified" => some .unverified
  | "self_verified" => some .selfVerified
  | "peer_verified" => some .peerVerified
  | "tool_verified" => some .toolVerified
  | "human_verified" => some .humanVerified
  | _ => none

@[simp] theorem ofWireName_wireName (s : VerificationStatus) :
    ofWireName s.wireName = some s := by
  cases s <;> rfl

end VerificationStatus

namespace LdpError

def toValue (e : LdpError) : Value := .object (
  [("code", .string e.code), ("category", .string e.category.wireName),
    ("message", .string e.message), ("severity", .string e.severity.wireName),
    ("retryable", .bool e.retryable)] ++
  Value.skipNone "partial_output" id e.partialOutput)

def fromValue (v : Value) : Option LdpError := do
  let code ← v.field "code" Value.asStr
  let category ← v.field "category" (Value.asUnitVariant FailureCategory.ofWireName)
  let message ← v.field "message" Value.asStr
  let severity ← v.field "severity" (Value.asUnitVariant ErrorSeverity.ofWireName)
  let retryable ← v.field "retryable" Value.asBool
  let partialOutput ← v.optionField "partial_output" some
  pure ⟨code, category, message, severity, retryable, partialOutput⟩

@[simp] theorem isNull_toValue (e : LdpError) : e.toValue.isNull = false := rfl

theorem fromValue_toValue (e : LdpError) (h : e.partialOutput ≠ some .null) :
    fromValue e.toValue = some e := by
  obtain ⟨code, category, message, severity, retryable, partialOutput⟩ := e
  unfold fromValue toValue
  cases partialOutput with
  | none => simp [Value.field, Value.optionField, Value.skipNone, List.lookup]
  | some v =>
      have hv : v.isNull = false := by
        rw [← Bool.not_eq_true, Value.isNull_iff]
        exact fun hnull => h (congrArg some hnull)
      simp [Value.field, Value.optionField, Value.skipNone, List.lookup, hv]

/-- Reading never yields a partial output of `null`: it takes one for an absent one. -/
theorem partialOutput_ne_null {v : Value} {e : LdpError} (h : fromValue v = some e) :
    e.partialOutput ≠ some .null := by
  simp only [fromValue, Option.bind_eq_bind, Option.bind_eq_some_iff, Option.pure_def,
    Option.some.injEq] at h
  obtain ⟨_, _, _, _, _, _, _, _, _, _, partialOutput, hread, rfl⟩ := h
  intro hnull
  have hread := hread.trans (congrArg some hnull)
  obtain ⟨w, hw, hdecode⟩ := Value.optionField_eq_some hread
  exact hw (Option.some.inj hdecode)

end LdpError

namespace EvidenceRef

def toValue (e : EvidenceRef) : Value := .object (
  [("source", .string e.source), ("kind", .string e.kind)] ++
  Value.skipNone "uri" .string e.uri ++ Value.skipNone "summary" .string e.summary)

def fromValue (v : Value) : Option EvidenceRef := do
  let source ← v.field "source" Value.asStr
  let kind ← v.field "kind" Value.asStr
  let uri ← v.optionField "uri" Value.asStr
  let summary ← v.optionField "summary" Value.asStr
  pure ⟨source, kind, uri, summary⟩

@[simp] theorem fromValue_toValue (e : EvidenceRef) : fromValue e.toValue = some e := by
  obtain ⟨source, kind, uri, summary⟩ := e
  unfold fromValue toValue
  cases uri <;> cases summary <;>
    simp [Value.field, Value.optionField, Value.skipNone, List.lookup]

end EvidenceRef

namespace ProvenanceEntry

def toValue (e : ProvenanceEntry) : Value := .object (
  [("delegate_id", .string e.delegateId), ("model_version", .string e.modelVersion),
    ("step", .string e.step)] ++
  Value.skipNone "timestamp" .string e.timestamp ++
  [("verification_status", .string e.verificationStatus.wireName)])

def fromValue (v : Value) : Option ProvenanceEntry := do
  let delegateId ← v.field "delegate_id" Value.asStr
  let modelVersion ← v.field "model_version" Value.asStr
  let step ← v.field "step" Value.asStr
  let timestamp ← v.optionField "timestamp" Value.asStr
  let verificationStatus ← v.defaultField "verification_status" .unverified
    (Value.asUnitVariant VerificationStatus.ofWireName)
  pure ⟨delegateId, modelVersion, step, timestamp, verificationStatus⟩

@[simp] theorem fromValue_toValue (e : ProvenanceEntry) : fromValue e.toValue = some e := by
  obtain ⟨delegateId, modelVersion, step, timestamp, status⟩ := e
  unfold fromValue toValue
  cases timestamp <;>
    simp [Value.field, Value.optionField, Value.defaultField,
      Value.skipNone, List.lookup]

end ProvenanceEntry

namespace Provenance

def toValue (p : Provenance) : Value := .object (
  [("produced_by", .string p.producedBy), ("model_version", .string p.modelVersion),
    ("payload_mode_used", p.payloadModeUsed.toValue),
    ("confidence", Value.orNull .ofF64 p.confidence), ("verified", .bool p.verified),
    ("session_id", Value.orNull .string p.sessionId),
    ("timestamp", Value.orNull .string p.timestamp)] ++
  Value.skipNone "tokens_used" .ofU64 p.tokensUsed ++
  Value.skipNone "cost_usd" .ofF64 p.costUsd ++
  Value.skipNone "contract_id" .string p.contractId ++
  Value.skipNone "contract_satisfied" .bool p.contractSatisfied ++
  [("contract_violations", .ofStrings p.contractViolations),
    ("verification_status", .string p.verificationStatus.wireName),
    ("evidence", .array (p.evidence.map EvidenceRef.toValue)),
    ("lineage", .array (p.lineage.map ProvenanceEntry.toValue))])

def fromValue (v : Value) : Option Provenance := do
  let producedBy ← v.field "produced_by" Value.asStr
  let modelVersion ← v.field "model_version" Value.asStr
  let payloadModeUsed ← v.field "payload_mode_used" PayloadMode.fromValue
  let confidence ← v.optionField "confidence" Value.asF64
  let verified ← v.defaultField "verified" false Value.asBool
  let sessionId ← v.optionField "session_id" Value.asStr
  let timestamp ← v.optionField "timestamp" Value.asStr
  let tokensUsed ← v.optionField "tokens_used" Value.asU64
  let costUsd ← v.optionField "cost_usd" Value.asF64
  let contractId ← v.optionField "contract_id" Value.asStr
  let contractSatisfied ← v.optionField "contract_satisfied" Value.asBool
  let contractViolations ← v.defaultField "contract_violations" [] (Value.asArray Value.asStr)
  let verificationStatus ← v.defaultField "verification_status" .unverified
    (Value.asUnitVariant VerificationStatus.ofWireName)
  let evidence ← v.defaultField "evidence" [] (Value.asArray EvidenceRef.fromValue)
  let lineage ← v.defaultField "lineage" [] (Value.asArray ProvenanceEntry.fromValue)
  pure ⟨producedBy, modelVersion, payloadModeUsed, confidence, verified, sessionId, timestamp,
    tokensUsed, costUsd, contractId, contractSatisfied, contractViolations, verificationStatus,
    evidence, lineage⟩

@[simp] theorem isNull_toValue (p : Provenance) : p.toValue.isNull = false := rfl

@[simp] theorem fromValue_toValue (p : Provenance) : fromValue p.toValue = some p := by
  have htokens : p.toValue.optionField "tokens_used" Value.asU64 = some p.tokensUsed := by
    apply Value.optionField_of_get Value.isNull_ofU64 Value.asU64_ofU64
    simp [toValue, List.lookup, Value.lookup_skipNone_append]
  have hcost : p.toValue.optionField "cost_usd" Value.asF64 = some p.costUsd := by
    apply Value.optionField_of_get Value.isNull_ofF64 Value.asF64_ofF64
    simp [toValue, List.lookup, Value.lookup_skipNone_append]
  have hcontract : p.toValue.optionField "contract_id" Value.asStr = some p.contractId := by
    apply Value.optionField_of_get Value.isNull_string Value.asStr_string
    simp [toValue, List.lookup, Value.lookup_skipNone_append]
  have hsatisfied : p.toValue.optionField "contract_satisfied" Value.asBool =
      some p.contractSatisfied := by
    apply Value.optionField_of_get Value.isNull_bool Value.asBool_bool
    simp [toValue, List.lookup, Value.lookup_skipNone_append]
  have hviolations : p.toValue.get "contract_violations" =
      some (.ofStrings p.contractViolations) := by
    simp [toValue, List.lookup, Value.lookup_skipNone_append]
  have hstatus : p.toValue.get "verification_status" =
      some (.string p.verificationStatus.wireName) := by
    simp [toValue, List.lookup, Value.lookup_skipNone_append]
  have hevidence : p.toValue.get "evidence" =
      some (.array (p.evidence.map EvidenceRef.toValue)) := by
    simp [toValue, List.lookup, Value.lookup_skipNone_append]
  have hlineage : p.toValue.get "lineage" =
      some (.array (p.lineage.map ProvenanceEntry.toValue)) := by
    simp [toValue, List.lookup, Value.lookup_skipNone_append]
  have hproduced : p.toValue.get "produced_by" = some (.string p.producedBy) := rfl
  have hversion : p.toValue.get "model_version" = some (.string p.modelVersion) := rfl
  have hmode : p.toValue.get "payload_mode_used" = some p.payloadModeUsed.toValue := rfl
  have hconfidence : p.toValue.get "confidence" = some (Value.orNull .ofF64 p.confidence) := rfl
  have hverified : p.toValue.get "verified" = some (.bool p.verified) := rfl
  have hsession : p.toValue.get "session_id" = some (Value.orNull .string p.sessionId) := rfl
  have htimestamp : p.toValue.get "timestamp" = some (Value.orNull .string p.timestamp) := rfl
  unfold fromValue
  rw [htokens, hcost, hcontract, hsatisfied]
  simp [Value.field, Value.optionField, Value.defaultField, hviolations, hstatus, hevidence,
    hlineage, hproduced, hversion, hmode, hconfidence, hverified, hsession, htimestamp,
    Value.asArray_map EvidenceRef.fromValue_toValue,
    Value.asArray_map ProvenanceEntry.fromValue_toValue]

end Provenance

namespace BudgetPolicy

def toValue (b : BudgetPolicy) : Value := .object (
  Value.skipNone "max_tokens" .ofU64 b.maxTokens ++
  Value.skipNone "max_cost_usd" .ofF64 b.maxCostUsd)

def fromValue (v : Value) : Option BudgetPolicy := do
  let _ ← v.asObject
  let maxTokens ← v.optionField "max_tokens" Value.asU64
  let maxCostUsd ← v.optionField "max_cost_usd" Value.asF64
  pure ⟨maxTokens, maxCostUsd⟩

@[simp] theorem isNull_toValue (b : BudgetPolicy) : b.toValue.isNull = false := rfl

@[simp] theorem fromValue_toValue (b : BudgetPolicy) : fromValue b.toValue = some b := by
  obtain ⟨maxTokens, maxCostUsd⟩ := b
  unfold fromValue toValue
  cases maxTokens <;> cases maxCostUsd <;>
    simp [Value.optionField, Value.skipNone, List.lookup]

end BudgetPolicy

namespace PolicyEnvelope

def toValue (p : PolicyEnvelope) : Value := .object (
  [("failure_policy", .string p.failurePolicy.wireName)] ++
  Value.skipNone "budget" BudgetPolicy.toValue p.budget ++
  [("safety_constraints", .ofStrings p.safetyConstraints)] ++
  Value.skipNone "max_delegation_depth" .ofU32 p.maxDelegationDepth)

def fromValue (v : Value) : Option PolicyEnvelope := do
  let _ ← v.asObject
  let failurePolicy ← v.defaultField "failure_policy" .failOpen
    (Value.asUnitVariant FailurePolicy.ofWireName)
  let budget ← v.optionField "budget" BudgetPolicy.fromValue
  let safetyConstraints ← v.defaultField "safety_constraints" [] (Value.asArray Value.asStr)
  let maxDelegationDepth ← v.optionField "max_delegation_depth" Value.asU32
  pure ⟨failurePolicy, budget, safetyConstraints, maxDelegationDepth⟩

@[simp] theorem fromValue_toValue (p : PolicyEnvelope) : fromValue p.toValue = some p := by
  obtain ⟨failurePolicy, budget, safetyConstraints, maxDelegationDepth⟩ := p
  unfold fromValue toValue
  cases budget <;> cases maxDelegationDepth <;>
    simp [Value.optionField, Value.defaultField,
      Value.skipNone, List.lookup]

end PolicyEnvelope

namespace DelegationContract

def toValue (c : DelegationContract) : Value := .object (
  [("contract_id", .string c.contractId), ("objective", .string c.objective),
    ("success_criteria", .ofStrings c.successCriteria), ("policy", c.policy.toValue)] ++
  Value.skipNone "deadline" .string c.deadline ++ [("created_at", .string c.createdAt)])

def fromValue (v : Value) : Option DelegationContract := do
  let contractId ← v.field "contract_id" Value.asStr
  let objective ← v.field "objective" Value.asStr
  let successCriteria ← v.field "success_criteria" (Value.asArray Value.asStr)
  let policy ← v.defaultField "policy" {} PolicyEnvelope.fromValue
  let deadline ← v.optionField "deadline" Value.asStr
  let createdAt ← v.field "created_at" Value.asStr
  pure ⟨contractId, objective, successCriteria, policy, deadline, createdAt⟩

@[simp] theorem isNull_toValue (c : DelegationContract) : c.toValue.isNull = false := rfl

@[simp] theorem fromValue_toValue (c : DelegationContract) : fromValue c.toValue = some c := by
  have hid : c.toValue.get "contract_id" = some (.string c.contractId) := rfl
  have hobjective : c.toValue.get "objective" = some (.string c.objective) := rfl
  have hcriteria : c.toValue.get "success_criteria" = some (.ofStrings c.successCriteria) := rfl
  have hpolicy : c.toValue.get "policy" = some c.policy.toValue := rfl
  have hdeadline : c.toValue.optionField "deadline" Value.asStr = some c.deadline := by
    apply Value.optionField_of_get Value.isNull_string Value.asStr_string
    simp [toValue, List.lookup, Value.lookup_skipNone_append]
  have hcreated : c.toValue.get "created_at" = some (.string c.createdAt) := by
    simp [toValue, List.lookup, Value.lookup_skipNone_append]
  unfold fromValue
  rw [hdeadline]
  simp [Value.field, Value.defaultField, hid, hobjective, hcriteria, hpolicy, hcreated]

end DelegationContract

namespace LdpMessageBody

/-- The members of a body besides its tag. -/
def members : LdpMessageBody → List (String × Value)
  | .hello delegateId supportedModes =>
      [("delegate_id", .string delegateId),
        ("supported_modes", .array (supportedModes.map PayloadMode.toValue))]
  | .capabilityManifest capabilities => [("capabilities", capabilities)]
  | .sessionPropose config => [("config", config)]
  | .sessionAccept sessionId negotiatedMode =>
      [("session_id", .string sessionId), ("negotiated_mode", negotiatedMode.toValue)]
  | .sessionReject reason error =>
      [("reason", .string reason)] ++ Value.skipNone "error" LdpError.toValue error
  | .taskSubmit taskId skill input contract =>
      [("task_id", .string taskId), ("skill", .string skill), ("input", input)] ++
      Value.skipNone "contract" DelegationContract.toValue contract
  | .taskUpdate taskId progress message =>
      [("task_id", .string taskId), ("progress", Value.orNull .ofF64 progress),
        ("message", Value.orNull .string message)]
  | .taskResult taskId output provenance =>
      [("task_id", .string taskId), ("output", output), ("provenance", provenance.toValue)]
  | .taskFailed taskId error => [("task_id", .string taskId), ("error", error.toValue)]
  | .taskCancel taskId => [("task_id", .string taskId)]
  | .attestation claim evidence => [("claim", claim), ("evidence", evidence)]
  | .sessionClose reason => [("reason", Value.orNull .string reason)]

def toValue (b : LdpMessageBody) : Value := .object (("type", .string b.tag) :: b.members)

/-- The variant a tag selects, read from the members. -/
def ofTag (v : Value) : String → Option LdpMessageBody
  | "HELLO" => do
      let delegateId ← v.field "delegate_id" Value.asStr
      let supportedModes ← v.field "supported_modes" (Value.asArray PayloadMode.fromValue)
      pure (.hello delegateId supportedModes)
  | "CAPABILITY_MANIFEST" => do
      let capabilities ← v.get "capabilities"
      pure (.capabilityManifest capabilities)
  | "SESSION_PROPOSE" => do
      let config ← v.get "config"
      pure (.sessionPropose config)
  | "SESSION_ACCEPT" => do
      let sessionId ← v.field "session_id" Value.asStr
      let negotiatedMode ← v.field "negotiated_mode" PayloadMode.fromValue
      pure (.sessionAccept sessionId negotiatedMode)
  | "SESSION_REJECT" => do
      let reason ← v.field "reason" Value.asStr
      let error ← v.optionField "error" LdpError.fromValue
      pure (.sessionReject reason error)
  | "TASK_SUBMIT" => do
      let taskId ← v.field "task_id" Value.asStr
      let skill ← v.field "skill" Value.asStr
      let input ← v.get "input"
      let contract ← v.optionField "contract" DelegationContract.fromValue
      pure (.taskSubmit taskId skill input contract)
  | "TASK_UPDATE" => do
      let taskId ← v.field "task_id" Value.asStr
      let progress ← v.optionField "progress" Value.asF64
      let message ← v.optionField "message" Value.asStr
      pure (.taskUpdate taskId progress message)
  | "TASK_RESULT" => do
      let taskId ← v.field "task_id" Value.asStr
      let output ← v.get "output"
      let provenance ← v.field "provenance" Provenance.fromValue
      pure (.taskResult taskId output provenance)
  | "TASK_FAILED" => do
      let taskId ← v.field "task_id" Value.asStr
      let error ← v.field "error" LdpError.fromValue
      pure (.taskFailed taskId error)
  | "TASK_CANCEL" => do
      let taskId ← v.field "task_id" Value.asStr
      pure (.taskCancel taskId)
  | "ATTESTATION" => do
      let claim ← v.get "claim"
      let evidence ← v.get "evidence"
      pure (.attestation claim evidence)
  | "SESSION_CLOSE" => do
      let reason ← v.optionField "reason" Value.asStr
      pure (.sessionClose reason)
  | _ => none

def fromValue (v : Value) : Option LdpMessageBody := do
  let tag ← v.field "type" Value.asStr
  ofTag v tag

/-- The errors a body carries. -/
def errors : LdpMessageBody → List LdpError
  | .sessionReject _ error => error.toList
  | .taskFailed _ error => [error]
  | _ => []

theorem fromValue_toValue (b : LdpMessageBody)
    (h : ∀ e ∈ b.errors, e.partialOutput ≠ some .null) : fromValue b.toValue = some b := by
  cases b with
  | hello delegateId modes =>
      have hread : fromValue (hello delegateId modes).toValue =
          ((Value.array (modes.map PayloadMode.toValue)).asArray PayloadMode.fromValue).bind
            fun read => some (.hello delegateId read) := rfl
      rw [hread, PayloadMode.asArray_fromValue]
      rfl
  | sessionAccept sessionId mode => cases mode <;> rfl
  | sessionReject reason error =>
      cases error with
      | none => rfl
      | some e =>
          have he := LdpError.fromValue_toValue e (h e (by simp [errors]))
          have hread : fromValue (sessionReject reason (some e)).toValue =
              (e.toValue.nullable LdpError.fromValue).bind
                fun read => some (.sessionReject reason read) := rfl
          rw [hread, Value.nullable_of_not_isNull (by simp), he]
          rfl
  | taskSubmit taskId skill input contract =>
      cases contract with
      | none => rfl
      | some c =>
          have hread : fromValue (taskSubmit taskId skill input (some c)).toValue =
              (c.toValue.nullable DelegationContract.fromValue).bind
                fun read => some (.taskSubmit taskId skill input read) := rfl
          rw [hread, Value.nullable_of_not_isNull (by simp), DelegationContract.fromValue_toValue]
          rfl
  | taskUpdate taskId progress message =>
      have hread : fromValue (taskUpdate taskId progress message).toValue =
          ((Value.orNull Value.ofF64 progress).nullable Value.asF64).bind fun p =>
            ((Value.orNull .string message).nullable Value.asStr).bind
              fun m => some (.taskUpdate taskId p m) := rfl
      rw [hread, Value.nullable_orNull_ofF64, Value.nullable_orNull_string]
      rfl
  | taskResult taskId output provenance =>
      have hread : fromValue (taskResult taskId output provenance).toValue =
          (Provenance.fromValue provenance.toValue).bind
            fun read => some (.taskResult taskId output read) := rfl
      rw [hread, Provenance.fromValue_toValue]
      rfl
  | taskFailed taskId error =>
      have he := LdpError.fromValue_toValue error (h error (by simp [errors]))
      have hread : fromValue (taskFailed taskId error).toValue =
          (LdpError.fromValue error.toValue).bind fun read => some (.taskFailed taskId read) := rfl
      rw [hread, he]
      rfl
  | sessionClose reason =>
      have hread : fromValue (sessionClose reason).toValue =
          ((Value.orNull .string reason).nullable Value.asStr).bind
            fun read => some (.sessionClose read) := rfl
      rw [hread, Value.nullable_orNull_string]
      rfl
  | _ => rfl

theorem sessionReject_read {v : Value} {tag reason : String} {error : Option LdpError}
    (h : ofTag v tag = some (.sessionReject reason error)) :
    v.optionField "error" LdpError.fromValue = some error := by
  unfold ofTag at h
  split at h <;> simp [Option.bind_eq_some_iff] at h
  exact h.2

theorem taskFailed_read {v : Value} {tag taskId : String} {error : LdpError}
    (h : ofTag v tag = some (.taskFailed taskId error)) :
    v.field "error" LdpError.fromValue = some error := by
  unfold ofTag at h
  split at h <;> simp [Option.bind_eq_some_iff] at h
  exact h.2

/-- No error read with a body has a partial output of `null`. -/
theorem errors_read {v : Value} {tag : String} {b : LdpMessageBody} (h : ofTag v tag = some b) :
    ∀ err ∈ b.errors, err.partialOutput ≠ some .null := by
  intro err herr
  cases b with
  | sessionReject reason error =>
      have herror : error = some err := by simpa [errors] using herr
      subst herror
      obtain ⟨w, _, hw⟩ := Value.optionField_eq_some (sessionReject_read h)
      exact LdpError.partialOutput_ne_null hw
  | taskFailed taskId error =>
      have herror : err = error := by simpa [errors] using herr
      subst herror
      obtain ⟨w, _, hw⟩ := Option.bind_eq_some_iff.mp (taskFailed_read h)
      exact LdpError.partialOutput_ne_null hw
  | _ => simp [errors] at herr

end LdpMessageBody

namespace LdpEnvelope

def toValue (e : LdpEnvelope) : Value := .object (
  [("message_id", .string e.messageId), ("session_id", .string e.sessionId),
    ("from", .string e.from_), ("to", .string e.to_), ("body", e.body.toValue),
    ("payload_mode", e.payloadMode.toValue), ("timestamp", .string e.timestamp),
    ("provenance", Value.orNull Provenance.toValue e.provenance)] ++
  Value.skipNone "signature" .string e.signature ++
  Value.skipNone "signature_algorithm" .string e.signatureAlgorithm ++
  Value.skipNone "nonce" .string e.nonce)

def fromValue (v : Value) : Option LdpEnvelope := do
  let messageId ← v.field "message_id" Value.asStr
  let sessionId ← v.field "session_id" Value.asStr
  let from_ ← v.field "from" Value.asStr
  let to_ ← v.field "to" Value.asStr
  let body ← v.field "body" LdpMessageBody.fromValue
  let payloadMode ← v.field "payload_mode" PayloadMode.fromValue
  let timestamp ← v.field "timestamp" Value.asStr
  let provenance ← v.optionField "provenance" Provenance.fromValue
  let signature ← v.optionField "signature" Value.asStr
  let signatureAlgorithm ← v.optionField "signature_algorithm" Value.asStr
  let nonce ← v.optionField "nonce" Value.asStr
  pure ⟨messageId, sessionId, from_, to_, body, payloadMode, timestamp, provenance, signature,
    signatureAlgorithm, nonce⟩

/-- A sent envelope is received as it was, unless an error in it has a partial
output of `null`. -/
theorem fromValue_toValue (e : LdpEnvelope)
    (h : ∀ err ∈ e.body.errors, err.partialOutput ≠ some .null) :
    fromValue e.toValue = some e := by
  have hbody := LdpMessageBody.fromValue_toValue e.body h
  obtain ⟨messageId, sessionId, from_, to_, body, payloadMode, timestamp, provenance, signature,
    signatureAlgorithm, nonce⟩ := e
  have hprovenance := Value.nullable_orNull Provenance.isNull_toValue
    Provenance.fromValue_toValue provenance
  unfold fromValue toValue
  cases signature <;> cases signatureAlgorithm <;> cases nonce <;>
    simp [Value.field, Value.optionField, Value.skipNone, List.lookup, hprovenance, hbody]

/-- An envelope read back as it was sent has no error with a partial output of `null`. -/
theorem errors_of_read {e : LdpEnvelope} {v : Value} (h : fromValue v = some e) :
    ∀ err ∈ e.body.errors, err.partialOutput ≠ some .null := by
  simp only [fromValue, Option.bind_eq_bind, Option.bind_eq_some_iff, Option.pure_def,
    Option.some.injEq] at h
  obtain ⟨_, _, _, _, _, _, _, _, body, hbody, h⟩ := h
  obtain ⟨_, _, _, _, _, _, _, _, _, _, _, _, rfl⟩ := h
  obtain ⟨w, _, hw⟩ := Option.bind_eq_some_iff.mp hbody
  simp only [LdpMessageBody.fromValue, Option.bind_eq_bind, Option.bind_eq_some_iff] at hw
  obtain ⟨tag, _, htag⟩ := hw
  exact LdpMessageBody.errors_read htag

/-- The wire loses one distinction: a partial output of `null` comes back as none. -/
theorem reads_back_iff (e : LdpEnvelope) : fromValue e.toValue = some e ↔
    ∀ err ∈ e.body.errors, err.partialOutput ≠ some .null :=
  ⟨errors_of_read, fromValue_toValue e⟩

/-- A failed task whose partial output is an explicit `null`. -/
def nullOutputFailure : LdpEnvelope where
  messageId := "m"
  sessionId := "s"
  from_ := "ldp:delegate:a"
  to_ := "ldp:client:b"
  body := .taskFailed "t" {
    code := "RUNTIME_ERROR"
    category := .runtime
    message := "no output"
    severity := .error
    retryable := true
    partialOutput := some .null }
  payloadMode := .text
  timestamp := "2026-01-01T00:00:00Z"
  provenance := none
  signature := none
  signatureAlgorithm := none
  nonce := none

/-- It comes back with no partial output at all. -/
theorem null_output_lost : fromValue nullOutputFailure.toValue ≠ some nullOutputFailure :=
  fun h => errors_of_read h _ (List.mem_singleton.mpr rfl) rfl

end LdpEnvelope

end LdpProtocol.MessageTypes
