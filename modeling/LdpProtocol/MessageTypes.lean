import LdpProtocol.DelegateIdentity

/-!
# Rust message types

The envelope, its twelve body variants and everything nested in them, as the
Rust SDK declares them. Floating-point fields are exact rationals, also the progress of
an update with its 32 bits: no number is rounded, infinite or missing. The envelope
fields `from` and `to` are spelled `from_` and `to_`.
-/
namespace LdpProtocol.MessageTypes
open JsonValues PayloadModes DelegateIdentity

/-- Category of failure. -/
inductive FailureCategory where
  | identity | capability | policy | runtime | quality | session | transport | security
  deriving DecidableEq, Repr

inductive ErrorSeverity where
  | warning | error | fatal
  deriving DecidableEq, Repr

/-- Structured LDP error with category, severity, and retry information. -/
structure LdpError where
  code : String
  category : FailureCategory
  message : String
  severity : ErrorSeverity
  retryable : Bool
  partialOutput : Option Value := none

namespace LdpError

def policy (code message : String) : LdpError :=
  ⟨code, .policy, message, .fatal, false, none⟩

def runtime (code message : String) : LdpError :=
  ⟨code, .runtime, message, .error, true, none⟩

def transport (code message : String) : LdpError :=
  ⟨code, .transport, message, .warning, true, none⟩

def withPartialOutput (e : LdpError) (output : Value) : LdpError :=
  { e with partialOutput := some output }

end LdpError

inductive FailurePolicy where
  | failClosed
  | failOpen
  deriving DecidableEq, Repr

structure BudgetPolicy where
  maxTokens : Option UInt64
  maxCostUsd : Option ℚ
  deriving DecidableEq

structure PolicyEnvelope where
  failurePolicy : FailurePolicy := .failOpen
  budget : Option BudgetPolicy := none
  safetyConstraints : List String := []
  maxDelegationDepth : Option UInt32 := none
  deriving DecidableEq

/-- A delegation contract: bounded expectations for a task. -/
structure DelegationContract where
  contractId : String
  objective : String
  successCriteria : List String
  policy : PolicyEnvelope := {}
  deadline : Option String := none
  createdAt : String
  deriving DecidableEq

/-- How a result was verified. -/
inductive VerificationStatus where
  | unverified | selfVerified | peerVerified | toolVerified | humanVerified
  deriving DecidableEq, Repr

structure EvidenceRef where
  source : String
  kind : String
  uri : Option String
  summary : Option String
  deriving DecidableEq

/-- One hop in a delegation lineage chain. -/
structure ProvenanceEntry where
  delegateId : String
  modelVersion : String
  step : String
  timestamp : Option String
  verificationStatus : VerificationStatus
  deriving DecidableEq

/-- Provenance metadata attached to every LDP task result. -/
structure Provenance where
  producedBy : String
  modelVersion : String
  payloadModeUsed : PayloadMode
  confidence : Option ℚ
  verified : Bool
  sessionId : Option String
  timestamp : Option String
  tokensUsed : Option UInt64
  costUsd : Option ℚ
  contractId : Option String
  contractSatisfied : Option Bool
  contractViolations : List String
  verificationStatus : VerificationStatus
  evidence : List EvidenceRef
  lineage : List ProvenanceEntry
  deriving DecidableEq

namespace Provenance

/-- `Provenance::new`; the timestamp is the clock reading taken inside it. -/
def new (delegateId modelVersion timestamp : String) : Provenance where
  producedBy := delegateId
  modelVersion := modelVersion
  payloadModeUsed := .semanticFrame
  confidence := none
  verified := false
  sessionId := none
  timestamp := some timestamp
  tokensUsed := none
  costUsd := none
  contractId := none
  contractSatisfied := none
  contractViolations := []
  verificationStatus := .unverified
  evidence := []
  lineage := []

/-- Sync the verified flag with the authoritative verification status. -/
def normalize (p : Provenance) : Provenance :=
  let status := if p.verificationStatus = .unverified ∧ p.verified = true then
    .selfVerified else p.verificationStatus
  { p with verificationStatus := status, verified := decide (status ≠ .unverified) }

end Provenance

/-- LDP message body variants. -/
inductive LdpMessageBody where
  | hello (delegateId : String) (supportedModes : List PayloadMode)
  | capabilityManifest (capabilities : Value)
  | sessionPropose (config : Value)
  | sessionAccept (sessionId : String) (negotiatedMode : PayloadMode)
  | sessionReject (reason : String) (error : Option LdpError)
  | taskSubmit (taskId skill : String) (input : Value) (contract : Option DelegationContract)
  | taskUpdate (taskId : String) (progress : Option ℚ) (message : Option String)
  | taskResult (taskId : String) (output : Value) (provenance : Provenance)
  | taskFailed (taskId : String) (error : LdpError)
  | taskCancel (taskId : String)
  | attestation (claim evidence : Value)
  | sessionClose (reason : Option String)

namespace LdpMessageBody

/-- The serde tag, SCREAMING_SNAKE_CASE of the variant name. -/
def tag : LdpMessageBody → String
  | .hello .. => "HELLO"
  | .capabilityManifest .. => "CAPABILITY_MANIFEST"
  | .sessionPropose .. => "SESSION_PROPOSE"
  | .sessionAccept .. => "SESSION_ACCEPT"
  | .sessionReject .. => "SESSION_REJECT"
  | .taskSubmit .. => "TASK_SUBMIT"
  | .taskUpdate .. => "TASK_UPDATE"
  | .taskResult .. => "TASK_RESULT"
  | .taskFailed .. => "TASK_FAILED"
  | .taskCancel .. => "TASK_CANCEL"
  | .attestation .. => "ATTESTATION"
  | .sessionClose .. => "SESSION_CLOSE"

/-- What `std::mem::discriminant` shows of a variant in an error text. -/
def discriminant : LdpMessageBody → String
  | .hello .. => "Discriminant(0)"
  | .capabilityManifest .. => "Discriminant(1)"
  | .sessionPropose .. => "Discriminant(2)"
  | .sessionAccept .. => "Discriminant(3)"
  | .sessionReject .. => "Discriminant(4)"
  | .taskSubmit .. => "Discriminant(5)"
  | .taskUpdate .. => "Discriminant(6)"
  | .taskResult .. => "Discriminant(7)"
  | .taskFailed .. => "Discriminant(8)"
  | .taskCancel .. => "Discriminant(9)"
  | .attestation .. => "Discriminant(10)"
  | .sessionClose .. => "Discriminant(11)"

end LdpMessageBody

/-- LDP message envelope: wraps every protocol message. -/
structure LdpEnvelope where
  messageId : String
  sessionId : String
  from_ : String
  to_ : String
  body : LdpMessageBody
  payloadMode : PayloadMode
  timestamp : String
  provenance : Option Provenance := none
  signature : Option String := none
  signatureAlgorithm : Option String := none
  nonce : Option String := none

/-- `LdpEnvelope::new` with the message id and the timestamp it generates. -/
def LdpEnvelope.new (messageId timestamp sessionId from_ to_ : String)
    (body : LdpMessageBody) (payloadMode : PayloadMode) : LdpEnvelope where
  messageId := messageId
  sessionId := sessionId
  from_ := from_
  to_ := to_
  body := body
  payloadMode := payloadMode
  timestamp := timestamp

/-- State of an LDP session. -/
inductive SessionState where
  | initiating | proposed | active | suspended | closed | failed
  deriving DecidableEq, Repr

/-- An LDP session; instants are nanoseconds of UTC. -/
structure LdpSession where
  sessionId : String
  remoteUrl : String
  remoteDelegateId : String
  state : SessionState
  payload : NegotiatedPayload
  trustDomain : TrustDomain
  createdAt : ℤ
  lastUsed : ℤ
  ttlSecs : UInt64
  taskCount : UInt64
  deriving DecidableEq, Repr

end LdpProtocol.MessageTypes
