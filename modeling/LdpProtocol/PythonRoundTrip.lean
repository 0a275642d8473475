import LdpProtocol.PythonWire

/-!
# Python messages read back

What the Python SDK dumps it validates again, whatever the default factories
make, since a dump leaves no member out. The one thing validation does to a
message is to bring the two verification fields of its provenances in line, so
a message that was validated once is read back as it is.
-/
namespace LdpProtocol.PythonMessages
open JsonValues PayloadModes DelegateIdentity
open MessageTypes (FailureCategory ErrorSeverity FailurePolicy VerificationStatus EvidenceRef
  ProvenanceEntry)

section Fields

theorem isNull_ofInt (i : ℤ) : (ofInt i).isNull = false := rfl

theorem nullable_ofInt (o : Option ℤ) : (Value.orNull ofInt o).nullable Value.asInt = some o :=
  Value.nullable_orNull isNull_ofInt (fun _ => rfl) o

theorem nullable_bool (o : Option Bool) : (Value.orNull .bool o).nullable Value.asBool = some o :=
  Value.nullable_orNull Value.isNull_bool Value.asBool_bool o

theorem nullable_object (o : Option (List (String × Value))) :
    (Value.orNull .object o).nullable Value.asObject = some o :=
  Value.nullable_orNull Value.isNull_object Value.asObject_object o

theorem nullable_mode (o : Option PayloadMode) :
    (Value.orNull PayloadMode.toValue o).nullable asMode = some o :=
  Value.nullable_orNull (fun m => by cases m <;> rfl) asMode_toValue o

theorem nullable_modes (o : Option (List PayloadMode)) :
    (Value.orNull (fun ms => .array (ms.map PayloadMode.toValue)) o).nullable
      (Value.asArray asMode) = some o :=
  Value.nullable_orNull (fun _ => rfl) (Value.asArray_map asMode_toValue) o

end Fields

namespace LdpError

theorem modelValidate_modelDump (e : LdpError) : modelValidate e.modelDump = some e := by
  let v := e.modelDump
  have hcode : v.field "code" Value.asStr = some e.code := rfl
  have hcategory : v.field "category" (asEnum FailureCategory.ofWireName) = some e.category :=
    FailureCategory.ofWireName_wireName _
  have hmessage : v.field "message" Value.asStr = some e.message := rfl
  have hseverity : v.field "severity" (asEnum ErrorSeverity.ofWireName) = some e.severity :=
    ErrorSeverity.ofWireName_wireName _
  have hretryable : v.field "retryable" Value.asBool = some e.retryable := rfl
  unfold modelValidate
  rw [hcode, hcategory, hmessage, hseverity, hretryable]
  rfl

end LdpError

theorem EvidenceRef.modelValidate_modelDump (e : EvidenceRef) :
    EvidenceRef.modelValidate (EvidenceRef.modelDump e) = some e := by
  let v := EvidenceRef.modelDump e
  have huri : v.optionField "uri" Value.asStr = some e.uri := Value.nullable_orNull_string _
  have hsummary : v.optionField "summary" Value.asStr = some e.summary :=
    Value.nullable_orNull_string _
  unfold EvidenceRef.modelValidate
  rw [huri, hsummary]
  rfl

theorem ProvenanceEntry.modelValidate_modelDump (e : ProvenanceEntry) :
    ProvenanceEntry.modelValidate (ProvenanceEntry.modelDump e) = some e := by
  let v := ProvenanceEntry.modelDump e
  have htimestamp : v.optionField "timestamp" Value.asStr = some e.timestamp :=
    Value.nullable_orNull_string _
  have hstatus : v.defaultField "verification_status" .unverified
      (asEnum VerificationStatus.ofWireName) = some e.verificationStatus :=
    VerificationStatus.ofWireName_wireName _
  unfold ProvenanceEntry.modelValidate
  rw [htimestamp, hstatus]
  rfl

namespace Provenance

@[simp] theorem normalize_normalize (p : Provenance) : p.normalize.normalize = p.normalize := by
  unfold normalize
  by_cases hstatus : p.verificationStatus = .unverified <;>
    by_cases hverified : p.verified = true <;> simp [hstatus, hverified]

theorem modelValidate_modelDump (made : Factories) (p : Provenance) :
    modelValidate made p.modelDump = some p.normalize := by
  let v := p.modelDump
  have hproducer : v.field "produced_by" Value.asStr = some p.producedBy := rfl
  have hversion : v.field "model_version" Value.asStr = some p.modelVersion := rfl
  have hmode : v.defaultField "payload_mode_used" .semanticFrame asMode =
      some p.payloadModeUsed := asMode_toValue _
  have hconfidence : v.optionField "confidence" Value.asF64 = some p.confidence :=
    Value.nullable_orNull_ofF64 _
  have hverified : v.defaultField "verified" false Value.asBool = some p.verified := rfl
  have hsession : v.optionField "session_id" Value.asStr = some p.sessionId :=
    Value.nullable_orNull_string _
  have htimestamp : v.defaultField "timestamp" (some made.producedAt)
      (Value.nullable Value.asStr) = some p.timestamp := Value.nullable_orNull_string _
  have htokens : v.optionField "tokens_used" Value.asInt = some p.tokensUsed := nullable_ofInt _
  have hcost : v.optionField "cost_usd" Value.asF64 = some p.costUsd :=
    Value.nullable_orNull_ofF64 _
  have hcontract : v.optionField "contract_id" Value.asStr = some p.contractId :=
    Value.nullable_orNull_string _
  have hsatisfied : v.optionField "contract_satisfied" Value.asBool =
      some p.contractSatisfied := nullable_bool _
  have hviolations : v.defaultField "contract_violations" [] (Value.asArray Value.asStr) =
      some p.contractViolations := Value.asArray_ofStrings _
  have hstatus : v.defaultField "verification_status" .unverified
      (asEnum VerificationStatus.ofWireName) = some p.verificationStatus :=
    VerificationStatus.ofWireName_wireName _
  have hevidence : v.defaultField "evidence" [] (Value.asArray EvidenceRef.modelValidate) =
      some p.evidence := Value.asArray_map EvidenceRef.modelValidate_modelDump _
  have hlineage : v.defaultField "lineage" [] (Value.asArray ProvenanceEntry.modelValidate) =
      some p.lineage := Value.asArray_map ProvenanceEntry.modelValidate_modelDump _
  unfold modelValidate
  rw [hproducer, hversion, hmode, hconfidence, hverified, hsession, htimestamp, htokens, hcost,
    hcontract, hsatisfied, hviolations, hstatus, hevidence, hlineage]
  rfl

/-- The two verification fields say the same. -/
def InLine (p : Provenance) : Prop := p.verified = decide (p.verificationStatus ≠ .unverified)

theorem normalize_eq_self (p : Provenance) : p.normalize = p ↔ p.InLine := by
  obtain ⟨_, _, _, _, verified, _, _, _, _, _, _, _, status, _, _⟩ := p
  unfold normalize InLine
  by_cases hstatus : status = .unverified <;> cases verified <;> simp [hstatus]

theorem map_normalize_eq_self (o : Option Provenance) :
    o.map normalize = o ↔ ∀ p ∈ o, p.InLine := by
  cases o with
  | none => simp
  | some p => simp [normalize_eq_self]

/-- A validated provenance has its two verification fields in line. -/
theorem normalize_of_modelValidate {made : Factories} {v : Value} {p : Provenance}
    (h : modelValidate made v = some p) : p.normalize = p := by
  unfold modelValidate at h
  obtain ⟨producedBy, _, h⟩ := Option.bind_eq_some_iff.mp h
  obtain ⟨modelVersion, _, h⟩ := Option.bind_eq_some_iff.mp h
  obtain ⟨payloadModeUsed, _, h⟩ := Option.bind_eq_some_iff.mp h
  obtain ⟨confidence, _, h⟩ := Option.bind_eq_some_iff.mp h
  obtain ⟨verified, _, h⟩ := Option.bind_eq_some_iff.mp h
  obtain ⟨sessionId, _, h⟩ := Option.bind_eq_some_iff.mp h
  obtain ⟨timestamp, _, h⟩ := Option.bind_eq_some_iff.mp h
  obtain ⟨tokensUsed, _, h⟩ := Option.bind_eq_some_iff.mp h
  obtain ⟨costUsd, _, h⟩ := Option.bind_eq_some_iff.mp h
  obtain ⟨contractId, _, h⟩ := Option.bind_eq_some_iff.mp h
  obtain ⟨contractSatisfied, _, h⟩ := Option.bind_eq_some_iff.mp h
  obtain ⟨contractViolations, _, h⟩ := Option.bind_eq_some_iff.mp h
  obtain ⟨verificationStatus, _, h⟩ := Option.bind_eq_some_iff.mp h
  obtain ⟨evidence, _, h⟩ := Option.bind_eq_some_iff.mp h
  obtain ⟨lineage, _, h⟩ := Option.bind_eq_some_iff.mp h
  cases h
  exact normalize_normalize _

end Provenance

theorem BudgetPolicy.modelValidate_modelDump (b : BudgetPolicy) :
    BudgetPolicy.modelValidate b.modelDump = some b := by
  let v := b.modelDump
  have hobject : v.asObject = some _ := rfl
  have htokens : v.optionField "max_tokens" Value.asInt = some b.maxTokens := nullable_ofInt _
  have hcost : v.optionField "max_cost_usd" Value.asF64 = some b.maxCostUsd :=
    Value.nullable_orNull_ofF64 _
  unfold BudgetPolicy.modelValidate
  rw [hobject, htokens, hcost]
  rfl

theorem PolicyEnvelope.modelValidate_modelDump (p : PolicyEnvelope) :
    PolicyEnvelope.modelValidate p.modelDump = some p := by
  let v := p.modelDump
  have hobject : v.asObject = some _ := rfl
  have hfailure : v.defaultField "failure_policy" .failOpen (asEnum FailurePolicy.ofWireName) =
      some p.failurePolicy := FailurePolicy.ofWireName_wireName _
  have hbudget : v.optionField "budget" BudgetPolicy.modelValidate = some p.budget :=
    Value.nullable_orNull (fun _ => rfl) BudgetPolicy.modelValidate_modelDump _
  have hsafety : v.defaultField "safety_constraints" [] (Value.asArray Value.asStr) =
      some p.safetyConstraints := Value.asArray_ofStrings _
  have hdepth : v.optionField "max_delegation_depth" Value.asInt = some p.maxDelegationDepth :=
    nullable_ofInt _
  unfold PolicyEnvelope.modelValidate
  rw [hobject, hfailure, hbudget, hsafety, hdepth]
  rfl

theorem DelegationContract.modelValidate_modelDump (made : Factories) (c : DelegationContract) :
    DelegationContract.modelValidate made c.modelDump = some c := by
  let v := c.modelDump
  have hid : v.defaultField "contract_id" made.contractId Value.asStr = some c.contractId := rfl
  have hcriteria : v.defaultField "success_criteria" [] (Value.asArray Value.asStr) =
      some c.successCriteria := Value.asArray_ofStrings _
  have hpolicy : v.defaultField "policy" {} PolicyEnvelope.modelValidate = some c.policy :=
    PolicyEnvelope.modelValidate_modelDump _
  have hdeadline : v.optionField "deadline" Value.asStr = some c.deadline :=
    Value.nullable_orNull_string _
  have hcreated : v.defaultField "created_at" made.createdAt Value.asStr = some c.createdAt := rfl
  unfold DelegationContract.modelValidate
  rw [hid, hcriteria, hpolicy, hdeadline, hcreated]
  rfl

theorem ErrorField.modelValidate_modelDump (e : ErrorField) :
    ErrorField.modelValidate e.modelDump = some e := by
  cases e with
  | text s => rfl
  | error e => exact congrArg (Option.map ErrorField.error) e.modelValidate_modelDump

theorem nullable_provenance (made : Factories) (o : Option Provenance) :
    (Value.orNull Provenance.modelDump o).nullable (Provenance.modelValidate made) =
      some (o.map Provenance.normalize) := by
  cases o with
  | none => rfl
  | some p => exact congrArg (Option.map some) (p.modelValidate_modelDump made)

theorem map_normalize_of_read {made : Factories} {v : Value} {key : String}
    {o : Option Provenance} (h : v.optionField key (Provenance.modelValidate made) = some o) :
    o.map Provenance.normalize = o := by
  cases o with
  | none => rfl
  | some p =>
      obtain ⟨w, _, hw⟩ := Value.optionField_eq_some h
      exact congrArg some (Provenance.normalize_of_modelValidate hw)

namespace LdpMessageBody

/-- The body with the two verification fields of its provenance in line. -/
def normalized (b : LdpMessageBody) : LdpMessageBody :=
  { b with provenance := b.provenance.map Provenance.normalize }

theorem modelValidate_modelDump (made : Factories) (b : LdpMessageBody) :
    modelValidate made b.modelDump = some b.normalized := by
  let v := b.modelDump
  have htype : v.field "type" Value.asStr = some b.type := rfl
  have hdelegate : v.optionField "delegate_id" Value.asStr = some b.delegateId :=
    Value.nullable_orNull_string _
  have hmodes : v.optionField "supported_modes" (Value.asArray asMode) = some b.supportedModes :=
    nullable_modes _
  have hconfig : v.optionField "config" Value.asObject = some b.config := nullable_object _
  have hsession : v.optionField "session_id" Value.asStr = some b.sessionId :=
    Value.nullable_orNull_string _
  have hmode : v.optionField "negotiated_mode" asMode = some b.negotiatedMode := nullable_mode _
  have hreason : v.optionField "reason" Value.asStr = some b.reason :=
    Value.nullable_orNull_string _
  have htask : v.optionField "task_id" Value.asStr = some b.taskId :=
    Value.nullable_orNull_string _
  have hskill : v.optionField "skill" Value.asStr = some b.skill :=
    Value.nullable_orNull_string _
  have hcontract : v.optionField "contract" (DelegationContract.modelValidate made) =
      some b.contract :=
    Value.nullable_orNull (fun _ => rfl) (DelegationContract.modelValidate_modelDump made) _
  have hprogress : v.optionField "progress" Value.asF64 = some b.progress :=
    Value.nullable_orNull_ofF64 _
  have hmessage : v.optionField "message" Value.asStr = some b.message :=
    Value.nullable_orNull_string _
  have hprovenance : v.optionField "provenance" (Provenance.modelValidate made) =
      some (b.provenance.map Provenance.normalize) := nullable_provenance made _
  have herror : v.optionField "error" ErrorField.modelValidate = some b.error :=
    Value.nullable_orNull (fun e => by cases e <;> rfl) ErrorField.modelValidate_modelDump _
  unfold modelValidate
  rw [htype, hdelegate, hmodes, hconfig, hsession, hmode, hreason, htask, hskill, hcontract,
    hprogress, hmessage, hprovenance, herror]
  rfl

theorem normalized_of_modelValidate {made : Factories} {v : Value} {b : LdpMessageBody}
    (h : modelValidate made v = some b) : b.normalized = b := by
  unfold modelValidate at h
  obtain ⟨type, _, h⟩ := Option.bind_eq_some_iff.mp h
  obtain ⟨delegateId, _, h⟩ := Option.bind_eq_some_iff.mp h
  obtain ⟨supportedModes, _, h⟩ := Option.bind_eq_some_iff.mp h
  obtain ⟨config, _, h⟩ := Option.bind_eq_some_iff.mp h
  obtain ⟨sessionId, _, h⟩ := Option.bind_eq_some_iff.mp h
  obtain ⟨negotiatedMode, _, h⟩ := Option.bind_eq_some_iff.mp h
  obtain ⟨reason, _, h⟩ := Option.bind_eq_some_iff.mp h
  obtain ⟨taskId, _, h⟩ := Option.bind_eq_some_iff.mp h
  obtain ⟨skill, _, h⟩ := Option.bind_eq_some_iff.mp h
  obtain ⟨contract, _, h⟩ := Option.bind_eq_some_iff.mp h
  obtain ⟨progress, _, h⟩ := Option.bind_eq_some_iff.mp h
  obtain ⟨message, _, h⟩ := Option.bind_eq_some_iff.mp h
  obtain ⟨provenance, hprovenance, h⟩ := Option.bind_eq_some_iff.mp h
  obtain ⟨error, _, h⟩ := Option.bind_eq_some_iff.mp h
  cases h
  exact congrArg (LdpMessageBody.mk _ _ _ _ _ _ _ _ _ _ _ _ _ _ _ · _ _ _)
    (map_normalize_of_read hprovenance)

end LdpMessageBody

namespace LdpEnvelope

/-- The envelope with its own provenance and that of its body in line. -/
def normalized (e : LdpEnvelope) : LdpEnvelope :=
  { e with body := e.body.normalized, provenance := e.provenance.map Provenance.normalize }

/-- A dumped envelope is validated as it was, but for the verification fields. -/
theorem modelValidate_modelDump (made : Factories) (e : LdpEnvelope) :
    modelValidate made e.modelDump = some e.normalized := by
  let v := e.modelDump
  have hmessage : v.defaultField "message_id" made.messageId Value.asStr = some e.messageId := rfl
  have hsession : v.defaultField "session_id" "" Value.asStr = some e.sessionId := rfl
  have hfrom : sender v = some e.from_ := rfl
  have hto : v.defaultField "to" "" Value.asStr = some e.to_ := rfl
  have hbody : v.field "body" (LdpMessageBody.modelValidate made) = some e.body.normalized :=
    LdpMessageBody.modelValidate_modelDump made _
  have hmode : v.defaultField "payload_mode" .text asMode = some e.payloadMode :=
    asMode_toValue _
  have htimestamp : v.defaultField "timestamp" made.timestamp Value.asStr = some e.timestamp := rfl
  have hprovenance : v.optionField "provenance" (Provenance.modelValidate made) =
      some (e.provenance.map Provenance.normalize) := nullable_provenance made _
  have hsignature : v.optionField "signature" Value.asStr = some e.signature :=
    Value.nullable_orNull_string _
  have halgorithm : v.optionField "signature_algorithm" Value.asStr =
      some e.signatureAlgorithm := Value.nullable_orNull_string _
  have hnonce : v.optionField "nonce" Value.asStr = some e.nonce := Value.nullable_orNull_string _
  unfold modelValidate
  rw [hmessage, hsession, hfrom, hto, hbody, hmode, htimestamp, hprovenance, hsignature,
    halgorithm, hnonce]
  rfl

theorem normalized_of_modelValidate {made : Factories} {v : Value} {e : LdpEnvelope}
    (h : modelValidate made v = some e) : e.normalized = e := by
  unfold modelValidate at h
  obtain ⟨messageId, _, h⟩ := Option.bind_eq_some_iff.mp h
  obtain ⟨sessionId, _, h⟩ := Option.bind_eq_some_iff.mp h
  obtain ⟨from_, _, h⟩ := Option.bind_eq_some_iff.mp h
  obtain ⟨to_, _, h⟩ := Option.bind_eq_some_iff.mp h
  obtain ⟨body, hbody, h⟩ := Option.bind_eq_some_iff.mp h
  obtain ⟨payloadMode, _, h⟩ := Option.bind_eq_some_iff.mp h
  obtain ⟨timestamp, _, h⟩ := Option.bind_eq_some_iff.mp h
  obtain ⟨provenance, hprovenance, h⟩ := Option.bind_eq_some_iff.mp h
  obtain ⟨signature, _, h⟩ := Option.bind_eq_some_iff.mp h
  obtain ⟨signatureAlgorithm, _, h⟩ := Option.bind_eq_some_iff.mp h
  obtain ⟨nonce, _, h⟩ := Option.bind_eq_some_iff.mp h
  cases h
  obtain ⟨w, _, hw⟩ := Option.bind_eq_some_iff.mp hbody
  unfold normalized
  dsimp only
  rw [LdpMessageBody.normalized_of_modelValidate hw, map_normalize_of_read hprovenance]

/-- The provenances of a message, its own and that of its body. -/
def provenances (e : LdpEnvelope) : List Provenance :=
  e.body.provenance.toList ++ e.provenance.toList

theorem normalized_eq_self (e : LdpEnvelope) :
    e.normalized = e ↔ ∀ p ∈ e.provenances, p.InLine := by
  have hfields : e.normalized = e ↔ e.body.provenance.map Provenance.normalize = e.body.provenance ∧
      e.provenance.map Provenance.normalize = e.provenance := by
    constructor
    · intro h
      exact ⟨congrArg (fun e => e.body.provenance) h, congrArg LdpEnvelope.provenance h⟩
    · rintro ⟨hbody, hown⟩
      unfold normalized LdpMessageBody.normalized
      rw [hbody, hown]
  rw [hfields, Provenance.map_normalize_eq_self, Provenance.map_normalize_eq_self]
  simp only [provenances, List.mem_append, Option.mem_toList, Option.mem_def, or_imp, forall_and]

/-- A dumped message is validated again, as itself exactly when the verification
fields of its provenances are in line, as those of every validated message are. -/
theorem kept_by_wire (e : LdpEnvelope) (made : Factories) :
    modelValidate made e.modelDump = some e.normalized ∧
      (modelValidate made e.modelDump = some e ↔ ∀ p ∈ e.provenances, p.InLine) ∧
      ∀ made₀ v, modelValidate made₀ v = some e → modelValidate made e.modelDump = some e := by
  have hread := modelValidate_modelDump made e
  have hback : modelValidate made e.modelDump = some e ↔ e.normalized = e := by
    rw [hread, Option.some.injEq]
  refine ⟨hread, hback.trans e.normalized_eq_self, ?_⟩
  exact fun _ _ h => hback.mpr (normalized_of_modelValidate h)

end LdpEnvelope
end LdpProtocol.PythonMessages
