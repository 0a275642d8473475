import LdpProtocol.PythonMessages
import LdpProtocol.SigningInput

/-!
# Python envelope signing

The same canonical order as in Rust, written over a type string with truthiness
guards: an empty or missing field is not fed to the MAC, which feeds the same
bytes as an empty one. Comparing with a signature that is not ASCII raises.
-/
namespace LdpProtocol.PythonSigning
open JsonValues EnvelopeSigning PythonMessages

/-- The updates an optional field gives: none when it is empty or missing. -/
def guarded (field : Option String) : List String :=
  if truthy field then field.toList else []

/-- The body part of the signing input. -/
def bodyUpdates (body : LdpMessageBody) : List String :=
  if body.type = "HELLO" ∧ truthy body.delegateId then body.delegateId.toList
  else if body.type = "SESSION_ACCEPT" ∧ truthy body.sessionId then body.sessionId.toList
  else if body.type = "SESSION_REJECT" ∧ truthy body.reason then body.reason.toList
  else if body.type = "TASK_SUBMIT" then guarded body.taskId ++ ["|"] ++ guarded body.skill
  else if body.type ∈ ["TASK_UPDATE", "TASK_RESULT", "TASK_FAILED", "TASK_CANCEL"] then
    guarded body.taskId
  else []

def signingUpdates (envelope : LdpEnvelope) : List String :=
  [envelope.from_, "|", envelope.to_, "|", envelope.sessionId, "|", envelope.timestamp, "|",
    envelope.messageId] ++
  (match envelope.nonce with
    | some nonce => ["|", nonce]
    | none => []) ++
  ["|"] ++ bodyUpdates envelope.body ++ ["|", envelope.body.type]

def signEnvelope (hmac : Hmac) (envelope : LdpEnvelope) (secret : String) : String :=
  hexEncode (hmac secret.toUTF8 (macInput (signingUpdates envelope)))

/-- What a Python call can raise here. -/
inductive Raised where
  | typeError (message : String)
  | validationError
  | connectionError (message : String)
  | httpStatusError (message : String)
  | hook (message : String)
  deriving DecidableEq

def isAscii (s : String) : Bool := s.toList.all fun c => decide (c.toNat < 128)

/-- Verify using constant-time comparison, which rejects non-ASCII strings. -/
def verifyEnvelope (hmac : Hmac) (envelope : LdpEnvelope) (secret signature : String) :
    Except Raised Bool :=
  let expected := signEnvelope hmac envelope secret
  if isAscii expected && isAscii signature then .ok (decide (expected = signature))
  else .error (.typeError "comparing strings with non-ASCII characters is not supported")

def applySignature (hmac : Hmac) (envelope : LdpEnvelope) (secret : String) : LdpEnvelope :=
  { envelope with
    signature := some (signEnvelope hmac envelope secret)
    signatureAlgorithm := some "hmac-sha256" }

/-- Signing where `signing_secret` is set to a non-empty string. -/
def signIfConfigured (hmac : Hmac) (signingSecret : Option String) (envelope : LdpEnvelope) :
    LdpEnvelope :=
  match signingSecret with
  | some secret => if secret = "" then envelope else applySignature hmac envelope secret
  | none => envelope

@[simp] theorem signIfConfigured_body (hmac : Hmac) (signingSecret : Option String)
    (envelope : LdpEnvelope) :
    (signIfConfigured hmac signingSecret envelope).body = envelope.body := by
  unfold signIfConfigured
  cases signingSecret with
  | none => rfl
  | some secret =>
      dsimp only
      split <;> rfl

end LdpProtocol.PythonSigning
