import LdpProtocol.CardExchange
import LdpProtocol.SigningAgreement

/-!
# Envelopes between the SDKs

The Python SDK reads every envelope the Rust SDK writes, but for a proposal whose
config is no object. What it reads it can send on, and then the Rust SDK has the
envelope as it was, with the verification fields of a provenance in line and no
partial output of `null`. In the other direction the Rust SDK refuses more, but
what it takes has settled already.
-/
namespace LdpProtocol.EnvelopeExchange
open JsonValues PayloadModes PythonMessages
open MessageTypes (VerificationStatus EvidenceRef ProvenanceEntry)

section Settled

/-- The error without a partial output of `null`. -/
def settledError (e : MessageTypes.LdpError) : MessageTypes.LdpError :=
  { e with partialOutput := e.partialOutput.filter fun v => !v.isNull }

def settledBody : MessageTypes.LdpMessageBody → MessageTypes.LdpMessageBody
  | .sessionReject reason error => .sessionReject reason (error.map settledError)
  | .taskResult taskId output provenance => .taskResult taskId output provenance.normalize
  | .taskFailed taskId error => .taskFailed taskId (settledError error)
  | b => b

/-- The envelope as it is after one hop. -/
def settled (e : MessageTypes.LdpEnvelope) : MessageTypes.LdpEnvelope :=
  { e with
    body := settledBody e.body
    provenance := e.provenance.map MessageTypes.Provenance.normalize }

theorem settledError_eq_self (e : MessageTypes.LdpError) :
    settledError e = e ↔ e.partialOutput ≠ some .null := by
  obtain ⟨code, category, message, severity, retryable, partialOutput⟩ := e
  unfold settledError
  cases partialOutput with
  | none => simp
  | some v => simp [← Value.isNull_iff, Option.filter_eq_some_iff]

theorem settledError_partialOutput (e : MessageTypes.LdpError) :
    (settledError e).partialOutput ≠ some .null := by
  intro hnull
  have hfiltered := (Option.filter_eq_some_iff.mp hnull).2
  cases hfiltered

end Settled

/-! ## Records

Each record of a Rust message as the Python SDK reads it, and back. -/

section Records

theorem nullable_asInt {α : Type} {encode : α → Value} {toInt : α → ℤ}
    (h : ∀ a, encode a = ofInt (toInt a)) (o : Option α) {v : Value} {key : String}
    (hget : v.get key = o.map encode) :
    v.optionField key Value.asInt = some (o.map toInt) := by
  rw [Value.optionField, hget]
  cases o with
  | none => rfl
  | some a => exact congrArg (fun w : Value => w.nullable Value.asInt) (h a)

/-- An unsigned field that came through Python. -/
theorem nullable_ofInt_back {α : Type} {encode : α → Value} {decode : Value → Option α}
    {toInt : α → ℤ} (h : ∀ a, encode a = ofInt (toInt a)) (hback : ∀ a, decode (encode a) = some a)
    (o : Option α) : (Value.orNull ofInt (o.map toInt)).nullable decode = some o := by
  cases o with
  | none => rfl
  | some a =>
      have hread := hback a
      rw [h] at hread
      exact congrArg (Option.map some) hread

theorem evidence_validated (e : EvidenceRef) : EvidenceRef.modelValidate e.toValue = some e := by
  have huri : e.toValue.optionField "uri" Value.asStr = some e.uri := by
    apply Value.optionField_of_get Value.isNull_string Value.asStr_string
    simp [EvidenceRef.toValue, List.lookup, Value.lookup_skipNone_append, Value.lookup_skipNone]
  have hsummary : e.toValue.optionField "summary" Value.asStr = some e.summary := by
    apply Value.optionField_of_get Value.isNull_string Value.asStr_string
    simp [EvidenceRef.toValue, List.lookup, Value.lookup_skipNone_append, Value.lookup_skipNone]
  unfold EvidenceRef.modelValidate
  rw [huri, hsummary]
  rfl

theorem entry_validated (e : ProvenanceEntry) :
    ProvenanceEntry.modelValidate e.toValue = some e := by
  have htimestamp : e.toValue.optionField "timestamp" Value.asStr = some e.timestamp := by
    apply Value.optionField_of_get Value.isNull_string Value.asStr_string
    simp [ProvenanceEntry.toValue, List.lookup, Value.lookup_skipNone_append]
  have hget : e.toValue.get "verification_status" =
      some (.string e.verificationStatus.wireName) := by
    simp [ProvenanceEntry.toValue, List.lookup, Value.lookup_skipNone_append]
  have hstatus : e.toValue.defaultField "verification_status" .unverified
      (asEnum VerificationStatus.ofWireName) = some e.verificationStatus := by
    rw [Value.defaultField, hget]
    exact VerificationStatus.ofWireName_wireName _
  unfold ProvenanceEntry.modelValidate
  rw [htimestamp, hstatus]
  rfl

theorem evidence_reread (e : EvidenceRef) :
    MessageTypes.EvidenceRef.fromValue (EvidenceRef.modelDump e) = some e := by
  let v := EvidenceRef.modelDump e
  have huri : v.optionField "uri" Value.asStr = some e.uri := Value.nullable_orNull_string _
  have hsummary : v.optionField "summary" Value.asStr = some e.summary :=
    Value.nullable_orNull_string _
  unfold MessageTypes.EvidenceRef.fromValue
  rw [huri, hsummary]
  rfl

theorem entry_reread (e : ProvenanceEntry) :
    MessageTypes.ProvenanceEntry.fromValue (ProvenanceEntry.modelDump e) = some e := by
  let v := ProvenanceEntry.modelDump e
  have htimestamp : v.optionField "timestamp" Value.asStr = some e.timestamp :=
    Value.nullable_orNull_string _
  have hstatus : v.defaultField "verification_status" .unverified
      (Value.asUnitVariant VerificationStatus.ofWireName) = some e.verificationStatus :=
    VerificationStatus.ofWireName_wireName _
  unfold MessageTypes.ProvenanceEntry.fromValue
  rw [htimestamp, hstatus]
  rfl

def pythonProvenance (p : MessageTypes.Provenance) : Provenance :=
  ⟨p.producedBy, p.modelVersion, p.payloadModeUsed, p.confidence, p.verified, p.sessionId,
    p.timestamp, p.tokensUsed.map fun n => (n.toNat : ℤ), p.costUsd, p.contractId,
    p.contractSatisfied, p.contractViolations, p.verificationStatus, p.evidence, p.lineage⟩

theorem provenance_validated (made : Factories) (p : MessageTypes.Provenance) :
    Provenance.modelValidate made p.toValue = some (pythonProvenance p.normalize) := by
  let v := p.toValue
  have hproducer : v.field "produced_by" Value.asStr = some p.producedBy := rfl
  have hversion : v.field "model_version" Value.asStr = some p.modelVersion := rfl
  have hmode : v.defaultField "payload_mode_used" .semanticFrame asMode =
      some p.payloadModeUsed := asMode_toValue _
  have hconfidence : v.optionField "confidence" Value.asF64 = some p.confidence :=
    Value.nullable_orNull_ofF64 _
  have hverified : v.defaultField "verified" false Value.asBool = some p.verified := rfl
  have hsession : v.optionField "session_id" Value.asStr = some p.sessionId :=
    Value.nullable_orNull_string _
  have htimestamp : v.defaultField "timestamp" (some made.producedAt)
      (Value.nullable Value.asStr) = some p.timestamp := Value.nullable_orNull_string _
  have htokens : v.optionField "tokens_used" Value.asInt =
      some (p.tokensUsed.map fun n => (n.toNat : ℤ)) := by
    apply nullable_asInt fun n : UInt64 => (rfl : Value.ofU64 n = ofInt n.toNat)
    simp [v, MessageTypes.Provenance.toValue, List.lookup, Value.lookup_skipNone_append]
  have hcost : v.optionField "cost_usd" Value.asF64 = some p.costUsd := by
    apply Value.optionField_of_get Value.isNull_ofF64 Value.asF64_ofF64
    simp [v, MessageTypes.Provenance.toValue, List.lookup, Value.lookup_skipNone_append]
  have hcontract : v.optionField "contract_id" Value.asStr = some p.contractId := by
    apply Value.optionField_of_get Value.isNull_string Value.asStr_string
    simp [v, MessageTypes.Provenance.toValue, List.lookup, Value.lookup_skipNone_append]
  have hsatisfied : v.optionField "contract_satisfied" Value.asBool =
      some p.contractSatisfied := by
    apply Value.optionField_of_get Value.isNull_bool Value.asBool_bool
    simp [v, MessageTypes.Provenance.toValue, List.lookup, Value.lookup_skipNone_append]
  have hviolations : v.defaultField "contract_violations" [] (Value.asArray Value.asStr) =
      some p.contractViolations := by
    have hget : v.get "contract_violations" = some (.ofStrings p.contractViolations) := by
      simp [v, MessageTypes.Provenance.toValue, List.lookup, Value.lookup_skipNone_append]
    rw [Value.defaultField, hget]
    exact Value.asArray_ofStrings _
  have hstatus : v.defaultField "verification_status" .unverified
      (asEnum VerificationStatus.ofWireName) = some p.verificationStatus := by
    have hget : v.get "verification_status" = some (.string p.verificationStatus.wireName) := by
      simp [v, MessageTypes.Provenance.toValue, List.lookup, Value.lookup_skipNone_append]
    rw [Value.defaultField, hget]
    exact VerificationStatus.ofWireName_wireName _
  have hevidence : v.defaultField "evidence" [] (Value.asArray EvidenceRef.modelValidate) =
      some p.evidence := by
    have hget : v.get "evidence" = some (.array (p.evidence.map EvidenceRef.toValue)) := by
      simp [v, MessageTypes.Provenance.toValue, List.lookup, Value.lookup_skipNone_append]
    rw [Value.defaultField, hget]
    exact Value.asArray_map evidence_validated _
  have hlineage : v.defaultField "lineage" [] (Value.asArray ProvenanceEntry.modelValidate) =
      some p.lineage := by
    have hget : v.get "lineage" = some (.array (p.lineage.map ProvenanceEntry.toValue)) := by
      simp [v, MessageTypes.Provenance.toValue, List.lookup, Value.lookup_skipNone_append]
    rw [Value.defaultField, hget]
    exact Value.asArray_map entry_validated _
  unfold Provenance.modelValidate
  rw [hproducer, hversion, hmode, hconfidence, hverified, hsession, htimestamp, htokens, hcost,
    hcontract, hsatisfied, hviolations, hstatus, hevidence, hlineage]
  rfl

/-- The Rust SDK has its provenance back. -/
theorem provenance_reread (p : MessageTypes.Provenance) :
    MessageTypes.Provenance.fromValue (pythonProvenance p).modelDump = some p := by
  let v := (pythonProvenance p).modelDump
  have hproducer : v.field "produced_by" Value.asStr = some p.producedBy := rfl
  have hversion : v.field "model_version" Value.asStr = some p.modelVersion := rfl
  have hmode : v.field "payload_mode_used" PayloadMode.fromValue = some p.payloadModeUsed :=
    PayloadMode.fromValue_toValue _
  have hconfidence : v.optionField "confidence" Value.asF64 = some p.confidence :=
    Value.nullable_orNull_ofF64 _
  have hverified : v.defaultField "verified" false Value.asBool = some p.verified := rfl
  have hsession : v.optionField "session_id" Value.asStr = some p.sessionId :=
    Value.nullable_orNull_string _
  have htimestamp : v.optionField "timestamp" Value.asStr = some p.timestamp :=
    Value.nullable_orNull_string _
  have htokens : v.optionField "tokens_used" Value.asU64 = some p.tokensUsed :=
    nullable_ofInt_back (fun _ => rfl) Value.asU64_ofU64 _
  have hcost : v.optionField "cost_usd" Value.asF64 = some p.costUsd :=
    Value.nullable_orNull_ofF64 _
  have hcontract : v.optionField "contract_id" Value.asStr = some p.contractId :=
    Value.nullable_orNull_string _
  have hsatisfied : v.optionField "contract_satisfied" Value.asBool =
      some p.contractSatisfied := nullable_bool _
  have hviolations : v.defaultField "contract_violations" [] (Value.asArray Value.asStr) =
      some p.contractViolations := Value.asArray_ofStrings _
  have hstatus : v.defaultField "verification_status" .unverified
      (Value.asUnitVariant VerificationStatus.ofWireName) = some p.verificationStatus :=
    VerificationStatus.ofWireName_wireName _
  have hevidence : v.defaultField "evidence" [] (Value.asArray MessageTypes.EvidenceRef.fromValue) =
      some p.evidence := Value.asArray_map evidence_reread _
  have hlineage : v.defaultField "lineage" []
      (Value.asArray MessageTypes.ProvenanceEntry.fromValue) = some p.lineage :=
    Value.asArray_map entry_reread _
  unfold MessageTypes.Provenance.fromValue
  rw [hproducer, hversion, hmode, hconfidence, hverified, hsession, htimestamp, htokens, hcost,
    hcontract, hsatisfied, hviolations, hstatus, hevidence, hlineage]
  rfl

def pythonBudget (b : MessageTypes.BudgetPolicy) : BudgetPolicy :=
  ⟨b.maxTokens.map fun n => (n.toNat : ℤ), b.maxCostUsd⟩

theorem budget_validated (b : MessageTypes.BudgetPolicy) :
    BudgetPolicy.modelValidate b.toValue = some (pythonBudget b) := by
  let v := b.toValue
  have hobject : v.asObject = some _ := rfl
  have htokens : v.optionField "max_tokens" Value.asInt =
      some (b.maxTokens.map fun n => (n.toNat : ℤ)) := by
    apply nullable_asInt fun n : UInt64 => (rfl : Value.ofU64 n = ofInt n.toNat)
    simp [v, MessageTypes.BudgetPolicy.toValue, Value.lookup_skipNone_append,
      Value.lookup_skipNone]
  have hcost : v.optionField "max_cost_usd" Value.asF64 = some b.maxCostUsd := by
    apply Value.optionField_of_get Value.isNull_ofF64 Value.asF64_ofF64
    simp [v, MessageTypes.BudgetPolicy.toValue, Value.lookup_skipNone_append,
      Value.lookup_skipNone]
  unfold BudgetPolicy.modelValidate
  rw [hobject, htokens, hcost]
  rfl

theorem budget_reread (b : MessageTypes.BudgetPolicy) :
    MessageTypes.BudgetPolicy.fromValue (pythonBudget b).modelDump = some b := by
  let v := (pythonBudget b).modelDump
  have hobject : v.asObject = some _ := rfl
  have htokens : v.optionField "max_tokens" Value.asU64 = some b.maxTokens :=
    nullable_ofInt_back (fun _ => rfl) Value.asU64_ofU64 _
  have hcost : v.optionField "max_cost_usd" Value.asF64 = some b.maxCostUsd :=
    Value.nullable_orNull_ofF64 _
  unfold MessageTypes.BudgetPolicy.fromValue
  rw [hobject, htokens, hcost]
  rfl

def pythonPolicy (p : MessageTypes.PolicyEnvelope) : PolicyEnvelope :=
  ⟨p.failurePolicy, p.budget.map pythonBudget, p.safetyConstraints,
    p.maxDelegationDepth.map fun n => (n.toNat : ℤ)⟩

/-- A record in an optional member that is left out when there is none. -/
theorem optionField_validated {α β : Type} {encode : α → Value} {decode : Value → Option β}
    {convert : α → β} (hnull : ∀ a, (encode a).isNull = false)
    (hdecode : ∀ a, decode (encode a) = some (convert a)) {v : Value} {key : String}
    {o : Option α} (hget : v.get key = o.map encode) :
    v.optionField key decode = some (o.map convert) := by
  rw [Value.optionField, hget]
  cases o with
  | none => rfl
  | some a =>
      show (encode a).nullable decode = some (some (convert a))
      rw [Value.nullable_of_not_isNull (by simp [hnull]), hdecode]
      rfl

/-- A record that came through Python, or none. -/
theorem nullable_reread {α β : Type} {convert : α → β} {encode : β → Value}
    {decode : Value → Option α} (hnull : ∀ b, (encode b).isNull = false)
    (hdecode : ∀ a, decode (encode (convert a)) = some a) (o : Option α) :
    (Value.orNull encode (o.map convert)).nullable decode = some o := by
  cases o with
  | none => rfl
  | some a =>
      show (encode (convert a)).nullable decode = some (some a)
      rw [Value.nullable_of_not_isNull (by simp [hnull]), hdecode]
      rfl

theorem policy_validated (p : MessageTypes.PolicyEnvelope) :
    PolicyEnvelope.modelValidate p.toValue = some (pythonPolicy p) := by
  let v := p.toValue
  have hobject : v.asObject = some _ := rfl
  have hfailure : v.defaultField "failure_policy" .failOpen
      (asEnum MessageTypes.FailurePolicy.ofWireName) = some p.failurePolicy :=
    MessageTypes.FailurePolicy.ofWireName_wireName _
  have hbudget : v.optionField "budget" BudgetPolicy.modelValidate =
      some (p.budget.map pythonBudget) := by
    apply optionField_validated MessageTypes.BudgetPolicy.isNull_toValue budget_validated
    simp [v, MessageTypes.PolicyEnvelope.toValue, List.lookup, Value.lookup_skipNone_append,
      Value.lookup_skipNone]
  have hsafety : v.defaultField "safety_constraints" [] (Value.asArray Value.asStr) =
      some p.safetyConstraints := by
    have hget : v.get "safety_constraints" = some (.ofStrings p.safetyConstraints) := by
      simp [v, MessageTypes.PolicyEnvelope.toValue, List.lookup, Value.lookup_skipNone_append]
    rw [Value.defaultField, hget]
    exact Value.asArray_ofStrings _
  have hdepth : v.optionField "max_delegation_depth" Value.asInt =
      some (p.maxDelegationDepth.map fun n => (n.toNat : ℤ)) := by
    apply nullable_asInt fun n : UInt32 => (rfl : Value.ofU32 n = ofInt n.toNat)
    simp [v, MessageTypes.PolicyEnvelope.toValue, List.lookup, Value.lookup_skipNone_append,
      Value.lookup_skipNone]
  unfold PolicyEnvelope.modelValidate
  rw [hobject, hfailure, hbudget, hsafety, hdepth]
  rfl

theorem policy_reread (p : MessageTypes.PolicyEnvelope) :
    MessageTypes.PolicyEnvelope.fromValue (pythonPolicy p).modelDump = some p := by
  let v := (pythonPolicy p).modelDump
  have hobject : v.asObject = some _ := rfl
  have hfailure : v.defaultField "failure_policy" .failOpen
      (Value.asUnitVariant MessageTypes.FailurePolicy.ofWireName) = some p.failurePolicy :=
    MessageTypes.FailurePolicy.ofWireName_wireName _
  have hbudget : v.optionField "budget" MessageTypes.BudgetPolicy.fromValue = some p.budget :=
    nullable_reread (fun _ => rfl) budget_reread _
  have hsafety : v.defaultField "safety_constraints" [] (Value.asArray Value.asStr) =
      some p.safetyConstraints := Value.asArray_ofStrings _
  have hdepth : v.optionField "max_delegation_depth" Value.asU32 = some p.maxDelegationDepth :=
    nullable_ofInt_back (fun _ => rfl) Value.asU32_ofU32 _
  unfold MessageTypes.PolicyEnvelope.fromValue
  rw [hobject, hfailure, hbudget, hsafety, hdepth]
  rfl

def pythonContract (c : MessageTypes.DelegationContract) : DelegationContract :=
  ⟨c.contractId, c.objective, c.successCriteria, pythonPolicy c.policy, c.deadline, c.createdAt⟩

theorem contract_validated (made : Factories) (c : MessageTypes.DelegationContract) :
    DelegationContract.modelValidate made c.toValue = some (pythonContract c) := by
  let v := c.toValue
  have hid : v.defaultField "contract_id" made.contractId Value.asStr = some c.contractId := rfl
  have hobjective : v.field "objective" Value.asStr = some c.objective := rfl
  have hcriteria : v.defaultField "success_criteria" [] (Value.asArray Value.asStr) =
      some c.successCriteria := Value.asArray_ofStrings _
  have hpolicy : v.defaultField "policy" {} PolicyEnvelope.modelValidate =
      some (pythonPolicy c.policy) := policy_validated _
  have hdeadline : v.optionField "deadline" Value.asStr = some c.deadline := by
    apply Value.optionField_of_get Value.isNull_string Value.asStr_string
    simp [v, MessageTypes.DelegationContract.toValue, List.lookup, Value.lookup_skipNone_append]
  have hcreated : v.defaultField "created_at" made.createdAt Value.asStr = some c.createdAt := by
    have hget : v.get "created_at" = some (.string c.createdAt) := by
      simp [v, MessageTypes.DelegationContract.toValue, List.lookup, Value.lookup_skipNone_append]
    rw [Value.defaultField, hget]
    rfl
  unfold DelegationContract.modelValidate
  rw [hid, hobjective, hcriteria, hpolicy, hdeadline, hcreated]
  rfl

theorem contract_reread (c : MessageTypes.DelegationContract) :
    MessageTypes.DelegationContract.fromValue (pythonContract c).modelDump = some c := by
  let v := (pythonContract c).modelDump
  have hcriteria : v.field "success_criteria" (Value.asArray Value.asStr) =
      some c.successCriteria := Value.asArray_ofStrings _
  have hpolicy : v.defaultField "policy" {} MessageTypes.PolicyEnvelope.fromValue =
      some c.policy := policy_reread _
  have hdeadline : v.optionField "deadline" Value.asStr = some c.deadline :=
    Value.nullable_orNull_string _
  unfold MessageTypes.DelegationContract.fromValue
  rw [hcriteria, hpolicy, hdeadline]
  rfl

def pythonError (e : MessageTypes.LdpError) : LdpError :=
  ⟨e.code, e.category, e.message, e.severity, e.retryable, e.partialOutput.getD .null⟩

theorem error_validated (e : MessageTypes.LdpError) :
    LdpError.modelValidate e.toValue = some (pythonError (settledError e)) := by
  let v := e.toValue
  have hcategory : v.field "category" (asEnum MessageTypes.FailureCategory.ofWireName) =
      some e.category := MessageTypes.FailureCategory.ofWireName_wireName _
  have hseverity : v.field "severity" (asEnum MessageTypes.ErrorSeverity.ofWireName) =
      some e.severity := MessageTypes.ErrorSeverity.ofWireName_wireName _
  have hpartial : anyField v "partial_output" = (pythonError (settledError e)).partialOutput := by
    have hget : v.get "partial_output" = e.partialOutput := by
      simp [v, MessageTypes.LdpError.toValue, List.lookup, Value.lookup_skipNone]
    unfold anyField pythonError settledError
    rw [hget]
    cases e.partialOutput with
    | none => rfl
    | some w => cases w <;> rfl
  unfold LdpError.modelValidate
  rw [hcategory, hseverity, hpartial]
  rfl

theorem error_reread {e : MessageTypes.LdpError} (he : e.partialOutput ≠ some .null) :
    MessageTypes.LdpError.fromValue (pythonError e).modelDump = some e := by
  let v := (pythonError e).modelDump
  have hcategory : v.field "category"
      (Value.asUnitVariant MessageTypes.FailureCategory.ofWireName) = some e.category :=
    MessageTypes.FailureCategory.ofWireName_wireName _
  have hseverity : v.field "severity"
      (Value.asUnitVariant MessageTypes.ErrorSeverity.ofWireName) = some e.severity :=
    MessageTypes.ErrorSeverity.ofWireName_wireName _
  have hpartial : v.optionField "partial_output" some = some e.partialOutput := by
    show (e.partialOutput.getD .null).nullable some = some e.partialOutput
    cases hwritten : e.partialOutput with
    | none => rfl
    | some w =>
        rw [hwritten] at he
        cases w with
        | null => exact (he rfl).elim
        | _ => rfl
  unfold MessageTypes.LdpError.fromValue
  rw [hcategory, hseverity, hpartial]
  rfl

end Records

/-! ## Bodies -/

section Bodies

/-- The config of a proposal is an object or null; the other bodies do not matter. -/
def Readable : MessageTypes.LdpMessageBody → Prop
  | .sessionPropose config => config.isNull = true ∨ config.asObject.isSome = true
  | _ => True

instance (b : MessageTypes.LdpMessageBody) : Decidable (Readable b) := by
  unfold Readable
  split <;> infer_instance

/-- A Rust body in the Python record. -/
def pythonBody : MessageTypes.LdpMessageBody → LdpMessageBody
  | .hello delegateId supportedModes => .hello delegateId supportedModes
  | .capabilityManifest capabilities => .capabilityManifest capabilities
  | .sessionPropose config => { type := "SESSION_PROPOSE", config := config.asObject }
  | .sessionAccept sessionId negotiatedMode => .sessionAccept sessionId negotiatedMode
  | .sessionReject reason error =>
      { type := "SESSION_REJECT", reason := some reason,
        error := error.map fun e => .error (pythonError e) }
  | .taskSubmit taskId skill input contract =>
      { type := "TASK_SUBMIT", taskId := some taskId, skill := some skill, input,
        contract := contract.map pythonContract }
  | .taskUpdate taskId progress message =>
      { type := "TASK_UPDATE", taskId := some taskId, progress, message }
  | .taskResult taskId output provenance => .taskResult taskId output (pythonProvenance provenance)
  | .taskFailed taskId error => .taskFailed taskId (pythonError error)
  | .taskCancel taskId => { type := "TASK_CANCEL", taskId := some taskId }
  | .attestation claim evidence => { type := "ATTESTATION", claim, evidence }
  | .sessionClose reason => .sessionClose reason

theorem errorField_validated (e : MessageTypes.LdpError) :
    ErrorField.modelValidate e.toValue = some (.error (pythonError (settledError e))) :=
  congrArg (Option.map ErrorField.error) (error_validated e)

theorem propose_validated (made : Factories) (config : Value) :
    LdpMessageBody.modelValidate made (MessageTypes.LdpMessageBody.sessionPropose config).toValue =
      (config.nullable Value.asObject).map fun members =>
        { type := "SESSION_PROPOSE", config := members } := by
  cases config <;> rfl

theorem body_validated (made : Factories) (b : MessageTypes.LdpMessageBody) :
    LdpMessageBody.modelValidate made b.toValue =
      if Readable b then some (pythonBody (settledBody b)) else none := by
  cases b with
  | hello delegateId modes => exact CrossWire.modelValidate_hello made delegateId modes
  | capabilityManifest capabilities => rfl
  | sessionPropose config =>
      rw [propose_validated]
      cases config <;> rfl
  | sessionAccept sessionId mode =>
      exact CrossWire.modelValidate_sessionAccept made sessionId mode
  | sessionReject reason error =>
      cases error with
      | none => rfl
      | some e =>
          have hread : LdpMessageBody.modelValidate made
              (MessageTypes.LdpMessageBody.sessionReject reason (some e)).toValue =
                (e.toValue.nullable ErrorField.modelValidate).bind fun read =>
                  some { type := "SESSION_REJECT", reason := some reason, error := read } := rfl
          rw [hread, Value.nullable_of_not_isNull (by simp), errorField_validated]
          rfl
  | taskSubmit taskId skill input contract =>
      cases contract with
      | none => rfl
      | some c =>
          have hread : LdpMessageBody.modelValidate made
              (MessageTypes.LdpMessageBody.taskSubmit taskId skill input (some c)).toValue =
                (c.toValue.nullable (DelegationContract.modelValidate made)).bind fun read =>
                  some { type := "TASK_SUBMIT", taskId := some taskId, skill := some skill, input,
                         contract := read } := rfl
          rw [hread, Value.nullable_of_not_isNull (by simp), contract_validated]
          rfl
  | taskUpdate taskId progress message =>
      have hread : LdpMessageBody.modelValidate made
          (MessageTypes.LdpMessageBody.taskUpdate taskId progress message).toValue =
            ((Value.orNull Value.ofF64 progress).nullable Value.asF64).bind fun p =>
              ((Value.orNull .string message).nullable Value.asStr).bind fun m =>
                some { type := "TASK_UPDATE", taskId := some taskId, progress := p,
                       message := m } := rfl
      rw [hread, Value.nullable_orNull_ofF64, Value.nullable_orNull_string]
      rfl
  | taskResult taskId output provenance =>
      have hread : LdpMessageBody.modelValidate made
          (MessageTypes.LdpMessageBody.taskResult taskId output provenance).toValue =
            (provenance.toValue.nullable (Provenance.modelValidate made)).bind fun read =>
              some { type := "TASK_RESULT", taskId := some taskId, output, provenance := read } :=
        rfl
      rw [hread, Value.nullable_of_not_isNull (by simp), provenance_validated]
      rfl
  | taskFailed taskId error =>
      have hread : LdpMessageBody.modelValidate made
          (MessageTypes.LdpMessageBody.taskFailed taskId error).toValue =
            (error.toValue.nullable ErrorField.modelValidate).bind fun read =>
              some { type := "TASK_FAILED", taskId := some taskId, error := read } := rfl
      rw [hread, Value.nullable_of_not_isNull (by simp), errorField_validated]
      rfl
  | taskCancel taskId => rfl
  | attestation claim evidence => rfl
  | sessionClose reason => cases reason <;> rfl

/-- The Rust SDK has the body back, unless an error in it has a partial output of `null`. -/
theorem body_reread {b : MessageTypes.LdpMessageBody} (hb : Readable b)
    (herrors : ∀ err ∈ b.errors, err.partialOutput ≠ some .null) :
    MessageTypes.LdpMessageBody.fromValue (pythonBody b).modelDump = some b := by
  cases b with
  | hello delegateId modes => exact CrossWire.fromValue_hello delegateId modes
  | capabilityManifest capabilities => rfl
  | sessionPropose config =>
      cases config with
      | null => rfl
      | object members => rfl
      | _ => rcases hb with hb | hb <;> cases hb
  | sessionAccept sessionId mode => exact CrossWire.fromValue_sessionAccept sessionId mode
  | sessionReject reason error =>
      cases error with
      | none => rfl
      | some e =>
          have hread : MessageTypes.LdpMessageBody.fromValue
              (pythonBody (.sessionReject reason (some e))).modelDump =
                ((pythonError e).modelDump.nullable MessageTypes.LdpError.fromValue).bind
                  fun read => some (.sessionReject reason read) := rfl
          have he := error_reread (herrors e (by simp [MessageTypes.LdpMessageBody.errors]))
          rw [hread, Value.nullable_of_not_isNull (by rintro ⟨⟩), he]
          rfl
  | taskSubmit taskId skill input contract =>
      cases contract with
      | none => rfl
      | some c =>
          have hread : MessageTypes.LdpMessageBody.fromValue
              (pythonBody (.taskSubmit taskId skill input (some c))).modelDump =
                ((pythonContract c).modelDump.nullable
                  MessageTypes.DelegationContract.fromValue).bind
                  fun read => some (.taskSubmit taskId skill input read) := rfl
          rw [hread, Value.nullable_of_not_isNull (by rintro ⟨⟩), contract_reread]
          rfl
  | taskUpdate taskId progress message =>
      have hread : MessageTypes.LdpMessageBody.fromValue
          (pythonBody (.taskUpdate taskId progress message)).modelDump =
            ((Value.orNull Value.ofF64 progress).nullable Value.asF64).bind fun p =>
              ((Value.orNull .string message).nullable Value.asStr).bind fun m =>
                some (.taskUpdate taskId p m) := rfl
      rw [hread, Value.nullable_orNull_ofF64, Value.nullable_orNull_string]
      rfl
  | taskResult taskId output provenance =>
      have hread : MessageTypes.LdpMessageBody.fromValue
          (pythonBody (.taskResult taskId output provenance)).modelDump =
            (MessageTypes.Provenance.fromValue (pythonProvenance provenance).modelDump).bind
              fun read => some (.taskResult taskId output read) := rfl
      rw [hread, provenance_reread]
      rfl
  | taskFailed taskId error =>
      have hread : MessageTypes.LdpMessageBody.fromValue
          (pythonBody (.taskFailed taskId error)).modelDump =
            (MessageTypes.LdpError.fromValue (pythonError error).modelDump).bind
              fun read => some (.taskFailed taskId read) := rfl
      have he := error_reread (herrors error (by simp [MessageTypes.LdpMessageBody.errors]))
      rw [hread, he]
      rfl
  | taskCancel taskId => rfl
  | attestation claim evidence => rfl
  | sessionClose reason => cases reason <;> rfl

/-- The provenance of a result. -/
def resultProvenance : MessageTypes.LdpMessageBody → Option MessageTypes.Provenance
  | .taskResult _ _ provenance => some provenance
  | _ => none

/-- No error has a partial output of `null`, and the provenance is in line. -/
structure BodySettled (b : MessageTypes.LdpMessageBody) : Prop where
  errors : ∀ err ∈ b.errors, err.partialOutput ≠ some .null
  provenance : ∀ p, resultProvenance b = some p → p.normalize = p

theorem provenance_normalize_normalize (p : MessageTypes.Provenance) :
    p.normalize.normalize = p.normalize := by
  unfold MessageTypes.Provenance.normalize
  by_cases hstatus : p.verificationStatus = .unverified <;>
    by_cases hverified : p.verified = true <;> simp [hstatus, hverified]

theorem bodySettled_settledBody (b : MessageTypes.LdpMessageBody) :
    BodySettled (settledBody b) := by
  constructor
  · intro err herr
    cases b with
    | sessionReject reason error =>
        obtain ⟨e, _, rfl⟩ := Option.map_eq_some_iff.mp (Option.mem_toList.mp herr)
        exact settledError_partialOutput e
    | taskFailed taskId error =>
        rw [List.mem_singleton.mp herr]
        exact settledError_partialOutput error
    | _ => cases herr
  · intro p hp
    cases b with
    | taskResult taskId output provenance =>
        rw [← Option.some.inj hp]
        exact provenance_normalize_normalize provenance
    | _ => cases hp

theorem settledBody_eq_self (b : MessageTypes.LdpMessageBody) :
    settledBody b = b ↔ BodySettled b := by
  constructor
  · intro h
    rw [← h]
    exact bodySettled_settledBody b
  · intro h
    cases b with
    | sessionReject reason error =>
        cases error with
        | none => rfl
        | some e =>
            have he := (settledError_eq_self e).mpr
              (h.errors e (by simp [MessageTypes.LdpMessageBody.errors]))
            exact congrArg (fun e => MessageTypes.LdpMessageBody.sessionReject reason (some e)) he
    | taskResult taskId output provenance =>
        exact congrArg (MessageTypes.LdpMessageBody.taskResult taskId output)
          (h.provenance provenance rfl)
    | taskFailed taskId error =>
        have he := (settledError_eq_self error).mpr
          (h.errors error (by simp [MessageTypes.LdpMessageBody.errors]))
        exact congrArg (MessageTypes.LdpMessageBody.taskFailed taskId) he
    | _ => rfl

theorem readable_settledBody (b : MessageTypes.LdpMessageBody) :
    Readable (settledBody b) ↔ Readable b := by
  cases b <;> rfl

/-- Of a Python provenance in line, the Rust SDK reads one in line. -/
theorem normalize_of_reread {q : Provenance} {read : MessageTypes.Provenance}
    (hq : q.normalize = q) (h : MessageTypes.Provenance.fromValue q.modelDump = some read) :
    read.normalize = read := by
  unfold MessageTypes.Provenance.fromValue at h
  obtain ⟨producedBy, _, h⟩ := Option.bind_eq_some_iff.mp h
  obtain ⟨modelVersion, _, h⟩ := Option.bind_eq_some_iff.mp h
  obtain ⟨payloadModeUsed, _, h⟩ := Option.bind_eq_some_iff.mp h
  obtain ⟨confidence, _, h⟩ := Option.bind_eq_some_iff.mp h
  obtain ⟨verified, hverified, h⟩ := Option.bind_eq_some_iff.mp h
  obtain ⟨sessionId, _, h⟩ := Option.bind_eq_some_iff.mp h
  obtain ⟨timestamp, _, h⟩ := Option.bind_eq_some_iff.mp h
  obtain ⟨tokensUsed, _, h⟩ := Option.bind_eq_some_iff.mp h
  obtain ⟨costUsd, _, h⟩ := Option.bind_eq_some_iff.mp h
  obtain ⟨contractId, _, h⟩ := Option.bind_eq_some_iff.mp h
  obtain ⟨contractSatisfied, _, h⟩ := Option.bind_eq_some_iff.mp h
  obtain ⟨contractViolations, _, h⟩ := Option.bind_eq_some_iff.mp h
  obtain ⟨status, hstatus, h⟩ := Option.bind_eq_some_iff.mp h
  obtain ⟨evidence, _, h⟩ := Option.bind_eq_some_iff.mp h
  obtain ⟨lineage, _, h⟩ := Option.bind_eq_some_iff.mp h
  cases h
  have hsame : some q.verified = some verified := hverified
  have hread : MessageTypes.VerificationStatus.ofWireName q.verificationStatus.wireName =
    some status := hstatus
  rw [VerificationStatus.ofWireName_wireName, Option.some.injEq] at hread
  cases hsame
  cases hread
  have hinline : q.verified = decide (q.verificationStatus ≠ .unverified) :=
    (Provenance.normalize_eq_self q).mp hq
  unfold MessageTypes.Provenance.normalize
  rw [hinline]
  by_cases hunverified : q.verificationStatus = .unverified <;> simp [hunverified]

theorem normalize_of_member {o : Option Provenance} (ho : o.map Provenance.normalize = o)
    {read : MessageTypes.Provenance}
    (h : MessageTypes.Provenance.fromValue (Value.orNull Provenance.modelDump o) = some read) :
    read.normalize = read := by
  cases o with
  | none => cases h
  | some q => exact normalize_of_reread (Option.some.inj ho) h

theorem taskResult_read {v : Value} {tag taskId : String} {output : Value}
    {provenance : MessageTypes.Provenance}
    (h : MessageTypes.LdpMessageBody.ofTag v tag = some (.taskResult taskId output provenance)) :
    v.field "provenance" MessageTypes.Provenance.fromValue = some provenance := by
  unfold MessageTypes.LdpMessageBody.ofTag at h
  split at h <;> simp [Option.bind_eq_some_iff] at h
  exact h.2.2

theorem sessionPropose_read {v : Value} {tag : String} {config : Value}
    (h : MessageTypes.LdpMessageBody.ofTag v tag = some (.sessionPropose config)) :
    v.get "config" = some config := by
  unfold MessageTypes.LdpMessageBody.ofTag at h
  split at h <;> simp [Option.bind_eq_some_iff] at h
  exact h

/-- What the Rust SDK takes of a Python body has settled. -/
theorem bodySettled_of_reread {b : LdpMessageBody} {read : MessageTypes.LdpMessageBody}
    (hb : b.normalized = b) (h : MessageTypes.LdpMessageBody.fromValue b.modelDump = some read) :
    BodySettled read ∧ Readable read := by
  have htag : MessageTypes.LdpMessageBody.ofTag b.modelDump b.type = some read := h
  refine ⟨⟨MessageTypes.LdpMessageBody.errors_read htag, ?_⟩, ?_⟩
  · intro p hp
    cases read with
    | taskResult taskId output provenance =>
        cases hp
        have hown : b.provenance.map Provenance.normalize = b.provenance :=
          congrArg LdpMessageBody.provenance hb
        exact normalize_of_member hown (taskResult_read htag)
    | _ => cases hp
  · cases read with
    | sessionPropose config =>
        have hconfig : some (Value.orNull .object b.config) = some config :=
          sessionPropose_read htag
        rw [← Option.some.inj hconfig]
        cases b.config with
        | none => exact .inl rfl
        | some members => exact .inr rfl
    | _ => trivial

end Bodies

/-! ## Envelopes -/

/-- A Rust envelope in the Python record. -/
def pythonEnvelope (e : MessageTypes.LdpEnvelope) : LdpEnvelope :=
  { CrossWire.received e (pythonBody e.body) with
    provenance := e.provenance.map pythonProvenance }

structure Settled (e : MessageTypes.LdpEnvelope) : Prop where
  body : BodySettled e.body
  provenance : ∀ p, e.provenance = some p → p.normalize = p

theorem settled_eq_self (e : MessageTypes.LdpEnvelope) : settled e = e ↔ Settled e := by
  have hfields : settled e = e ↔ settledBody e.body = e.body ∧
      e.provenance.map MessageTypes.Provenance.normalize = e.provenance := by
    constructor
    · intro h
      exact ⟨congrArg MessageTypes.LdpEnvelope.body h,
        congrArg MessageTypes.LdpEnvelope.provenance h⟩
    · rintro ⟨hbody, hown⟩
      unfold settled
      rw [hbody, hown]
  rw [hfields, settledBody_eq_self]
  constructor
  · rintro ⟨hbody, hown⟩
    refine ⟨hbody, ?_⟩
    intro p hp
    rw [hp] at hown
    exact Option.some.inj hown
  · rintro ⟨hbody, hown⟩
    refine ⟨hbody, ?_⟩
    cases hp : e.provenance with
    | none => rfl
    | some p => exact congrArg some (hown p hp)

theorem settled_settled (e : MessageTypes.LdpEnvelope) : Settled (settled e) := by
  refine ⟨bodySettled_settledBody e.body, ?_⟩
  intro p hp
  obtain ⟨q, _, rfl⟩ := Option.map_eq_some_iff.mp hp
  exact provenance_normalize_normalize q

theorem envelope_validated (made : Factories) (e : MessageTypes.LdpEnvelope) :
    LdpEnvelope.modelValidate made e.toValue =
      if Readable e.body then some (pythonEnvelope (settled e)) else none := by
  have hbody := body_validated made e.body
  have hprovenance : e.toValue.optionField "provenance" (Provenance.modelValidate made) =
      some ((e.provenance.map MessageTypes.Provenance.normalize).map pythonProvenance) := by
    show (Value.orNull MessageTypes.Provenance.toValue e.provenance).nullable _ = _
    cases e.provenance with
    | none => rfl
    | some p =>
        show p.toValue.nullable (Provenance.modelValidate made) = _
        rw [Value.nullable_of_not_isNull (by simp), provenance_validated]
        rfl
  have hsignature : e.toValue.optionField "signature" Value.asStr = some e.signature := by
    apply Value.optionField_of_get Value.isNull_string Value.asStr_string
    simp [MessageTypes.LdpEnvelope.toValue, List.lookup, Value.lookup_skipNone_append,
      Value.lookup_skipNone]
  have halgorithm : e.toValue.optionField "signature_algorithm" Value.asStr =
      some e.signatureAlgorithm := by
    apply Value.optionField_of_get Value.isNull_string Value.asStr_string
    simp [MessageTypes.LdpEnvelope.toValue, List.lookup, Value.lookup_skipNone_append,
      Value.lookup_skipNone]
  have hnonce : e.toValue.optionField "nonce" Value.asStr = some e.nonce := by
    apply Value.optionField_of_get Value.isNull_string Value.asStr_string
    simp [MessageTypes.LdpEnvelope.toValue, List.lookup, Value.lookup_skipNone_append,
      Value.lookup_skipNone]
  have hmessage : e.toValue.defaultField "message_id" made.messageId Value.asStr =
      some e.messageId := rfl
  have hsession : e.toValue.defaultField "session_id" "" Value.asStr = some e.sessionId := rfl
  have hfrom : LdpEnvelope.sender e.toValue = some e.from_ := rfl
  have hto : e.toValue.defaultField "to" "" Value.asStr = some e.to_ := rfl
  have hread : e.toValue.field "body" (LdpMessageBody.modelValidate made) =
      if Readable e.body then some (pythonBody (settledBody e.body)) else none := hbody
  have hmode : e.toValue.defaultField "payload_mode" .text asMode = some e.payloadMode :=
    asMode_toValue _
  have htimestamp : e.toValue.defaultField "timestamp" made.timestamp Value.asStr =
      some e.timestamp := rfl
  unfold LdpEnvelope.modelValidate
  rw [hmessage, hsession, hfrom, hto, hread, hmode, htimestamp, hprovenance, hsignature,
    halgorithm, hnonce]
  split <;> rfl

theorem envelope_reread {e : MessageTypes.LdpEnvelope} (hreadable : Readable e.body)
    (hsettled : Settled e) : MessageTypes.LdpEnvelope.fromValue (pythonEnvelope e).modelDump =
      some e := by
  let v := (pythonEnvelope e).modelDump
  have hbody : v.field "body" MessageTypes.LdpMessageBody.fromValue = some e.body :=
    body_reread hreadable hsettled.body.errors
  have hmode : v.field "payload_mode" PayloadMode.fromValue = some e.payloadMode :=
    PayloadMode.fromValue_toValue _
  have hprovenance : v.optionField "provenance" MessageTypes.Provenance.fromValue =
      some e.provenance := nullable_reread (fun _ => rfl) provenance_reread _
  have hsignature : v.optionField "signature" Value.asStr = some e.signature :=
    Value.nullable_orNull_string _
  have halgorithm : v.optionField "signature_algorithm" Value.asStr = some e.signatureAlgorithm :=
    Value.nullable_orNull_string _
  have hnonce : v.optionField "nonce" Value.asStr = some e.nonce := Value.nullable_orNull_string _
  unfold MessageTypes.LdpEnvelope.fromValue
  rw [hbody, hmode, hprovenance, hsignature, halgorithm, hnonce]
  rfl

/-- What the Rust SDK takes of a Python envelope has settled. -/
theorem settled_of_reread {p : LdpEnvelope} {e : MessageTypes.LdpEnvelope}
    (hp : p.normalized = p) (h : MessageTypes.LdpEnvelope.fromValue p.modelDump = some e) :
    Settled e ∧ Readable e.body := by
  unfold MessageTypes.LdpEnvelope.fromValue at h
  obtain ⟨messageId, _, h⟩ := Option.bind_eq_some_iff.mp h
  obtain ⟨sessionId, _, h⟩ := Option.bind_eq_some_iff.mp h
  obtain ⟨from_, _, h⟩ := Option.bind_eq_some_iff.mp h
  obtain ⟨to_, _, h⟩ := Option.bind_eq_some_iff.mp h
  obtain ⟨body, hbody, h⟩ := Option.bind_eq_some_iff.mp h
  obtain ⟨payloadMode, _, h⟩ := Option.bind_eq_some_iff.mp h
  obtain ⟨timestamp, _, h⟩ := Option.bind_eq_some_iff.mp h
  obtain ⟨provenance, hprovenance, h⟩ := Option.bind_eq_some_iff.mp h
  obtain ⟨signature, _, h⟩ := Option.bind_eq_some_iff.mp h
  obtain ⟨signatureAlgorithm, _, h⟩ := Option.bind_eq_some_iff.mp h
  obtain ⟨nonce, _, h⟩ := Option.bind_eq_some_iff.mp h
  cases h
  have hbodies : p.body.normalized = p.body := congrArg LdpEnvelope.body hp
  have hown : p.provenance.map Provenance.normalize = p.provenance :=
    congrArg LdpEnvelope.provenance hp
  obtain ⟨hsettled, hreadable⟩ := bodySettled_of_reread hbodies hbody
  refine ⟨⟨hsettled, ?_⟩, hreadable⟩
  intro q hq
  have hread : (Value.orNull Provenance.modelDump p.provenance).nullable
      MessageTypes.Provenance.fromValue = some (some q) := hprovenance.trans (congrArg some hq)
  cases hgiven : p.provenance with
  | none =>
      rw [hgiven] at hread
      cases hread
  | some r =>
      rw [hgiven] at hread hown
      change r.modelDump.nullable MessageTypes.Provenance.fromValue = some (some q) at hread
      rw [Value.nullable_of_not_isNull (by rintro ⟨⟩)] at hread
      obtain ⟨_, hr, hsame⟩ := Option.map_eq_some_iff.mp hread
      cases hsame
      exact normalize_of_reread (Option.some.inj hown) hr

/-- The signatures that one SDK accepts of an envelope are those the other accepts of it. -/
theorem verified_iff (hmac : EnvelopeSigning.Hmac) {e : MessageTypes.LdpEnvelope} {p : LdpEnvelope}
    (h : SigningAgreement.SameFields e p) (secret signature : String) :
    PythonSigning.verifyEnvelope hmac p secret signature = .ok true ↔
      EnvelopeSigning.verifyEnvelope hmac e secret signature = true := by
  rw [SigningAgreement.pythonVerify_iff, EnvelopeSigning.verifyEnvelope_iff,
    SigningAgreement.pythonSign_eq hmac h]

end LdpProtocol.EnvelopeExchange
