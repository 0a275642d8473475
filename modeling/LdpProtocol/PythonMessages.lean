import LdpProtocol.MessageTypes

/-!
# Python message types

The Python SDK has one body record with a type string and every field optional.
A field declared `Any` holds a JSON value, with `null` for `None`; integers are
unbounded. The enumerations and the records without numbers are those of the
Rust SDK.
-/
namespace LdpProtocol.PythonMessages
open JsonValues PayloadModes DelegateIdentity
open MessageTypes (FailureCategory ErrorSeverity FailurePolicy VerificationStatus EvidenceRef
  ProvenanceEntry)

structure LdpError where
  code : String
  category : FailureCategory
  message : String
  severity : ErrorSeverity
  retryable : Bool
  partialOutput : Value := .null

namespace LdpError

def policy (code message : String) : LdpError :=
  { code, category := .policy, message, severity := .fatal, retryable := false }

def runtime (code message : String) : LdpError :=
  { code, category := .runtime, message, severity := .error, retryable := true }

end LdpError

structure BudgetPolicy where
  maxTokens : Option ℤ := none
  maxCostUsd : Option ℚ := none

structure PolicyEnvelope where
  failurePolicy : FailurePolicy := .failOpen
  budget : Option BudgetPolicy := none
  safetyConstraints : List String := []
  maxDelegationDepth : Option ℤ := none

structure DelegationContract where
  contractId : String
  objective : String
  successCriteria : List String := []
  policy : PolicyEnvelope := {}
  deadline : Option String := none
  createdAt : String

structure Provenance where
  producedBy : String
  modelVersion : String
  payloadModeUsed : PayloadMode := .semanticFrame
  confidence : Option ℚ := none
  verified : Bool := false
  sessionId : Option String := none
  timestamp : Option String
  tokensUsed : Option ℤ := none
  costUsd : Option ℚ := none
  contractId : Option String := none
  contractSatisfied : Option Bool := none
  contractViolations : List String := []
  verificationStatus : VerificationStatus := .unverified
  evidence : List EvidenceRef := []
  lineage : List ProvenanceEntry := []

/-- Sync verified bool with verification_status; runs after every validation. -/
def Provenance.normalize (p : Provenance) : Provenance :=
  let status := if p.verificationStatus = .unverified ∧ p.verified = true then
    .selfVerified else p.verificationStatus
  { p with verificationStatus := status, verified := decide (status ≠ .unverified) }

/-- The `error` field: a plain text or a structured error. -/
inductive ErrorField where
  | text (s : String)
  | error (e : LdpError)

/-- LDP message body — tagged union matching the Rust implementation. -/
structure LdpMessageBody where
  type : String
  delegateId : Option String := none
  supportedModes : Option (List PayloadMode) := none
  capabilities : Value := .null
  config : Option (List (String × Value)) := none
  sessionId : Option String := none
  negotiatedMode : Option PayloadMode := none
  reason : Option String := none
  taskId : Option String := none
  skill : Option String := none
  input : Value := .null
  contract : Option DelegationContract := none
  progress : Option ℚ := none
  message : Option String := none
  output : Value := .null
  provenance : Option Provenance := none
  error : Option ErrorField := none
  claim : Value := .null
  evidence : Value := .null

namespace LdpMessageBody

def hello (delegateId : String) (supportedModes : List PayloadMode) : LdpMessageBody :=
  { type := "HELLO", delegateId := some delegateId, supportedModes := some supportedModes }

def capabilityManifest (capabilities : Value) : LdpMessageBody :=
  { type := "CAPABILITY_MANIFEST", capabilities }

def sessionPropose (config : List (String × Value)) : LdpMessageBody :=
  { type := "SESSION_PROPOSE", config := some config }

def sessionAccept (sessionId : String) (negotiatedMode : PayloadMode) : LdpMessageBody :=
  { type := "SESSION_ACCEPT", sessionId := some sessionId, negotiatedMode := some negotiatedMode }

/-- `session_reject` of a text, which is wrapped in a policy error. -/
def sessionReject (reason : String) : LdpMessageBody :=
  { type := "SESSION_REJECT", reason := some reason,
    error := some (.error (LdpError.policy "SESSION_REJECTED" reason)) }

def taskUpdate (taskId : String) (message : Option String) : LdpMessageBody :=
  { type := "TASK_UPDATE", taskId := some taskId, message }

def taskResult (taskId : String) (output : Value) (provenance : Provenance) : LdpMessageBody :=
  { type := "TASK_RESULT", taskId := some taskId, output, provenance := some provenance }

def taskFailed (taskId : String) (error : LdpError) : LdpMessageBody :=
  { type := "TASK_FAILED", taskId := some taskId, error := some (.error error) }

/-- `task_failed` of a text, which is wrapped in a runtime error. -/
def taskFailedText (taskId error : String) : LdpMessageBody :=
  taskFailed taskId (LdpError.runtime "TASK_FAILED" error)

def sessionClose (reason : Option String) : LdpMessageBody :=
  { type := "SESSION_CLOSE", reason }

end LdpMessageBody

structure LdpEnvelope where
  messageId : String
  sessionId : String := ""
  from_ : String := ""
  to_ : String := ""
  body : LdpMessageBody
  payloadMode : PayloadMode := .text
  timestamp : String
  provenance : Option Provenance := none
  signature : Option String := none
  signatureAlgorithm : Option String := none
  nonce : Option String := none

/-- `LdpEnvelope.create` with the message id and timestamp of its defaults. -/
def LdpEnvelope.create (messageId timestamp sessionId fromId toId : String)
    (body : LdpMessageBody) (payloadMode : PayloadMode) : LdpEnvelope :=
  { messageId, timestamp, sessionId, from_ := fromId, to_ := toId, body, payloadMode }

/-- An optional string that Python takes for true. -/
def truthy : Option String → Bool
  | some s => decide (s ≠ "")
  | none => false

end LdpProtocol.PythonMessages
