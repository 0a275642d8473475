import LdpProtocol.InterferedRuns
import LdpProtocol.PythonIdentity
import LdpProtocol.PythonSigning

/-!
# The Python delegate

`handleMessage` with its handlers. The subclass's task handler and lifecycle
hooks, the id generator, the clock and the codec registry are its surroundings;
any of the three callbacks may raise, and the task handler may raise what
`except Exception` does not catch. How Python prints a JSON value other than
a string is left open. The delegate keeps no sessions, so a run has no state.
-/
namespace LdpProtocol.PythonDelegate
open InteractivePrograms InterferedRuns
open JsonValues PayloadModes EnvelopeSigning PythonMessages PythonSigning PythonIdentity

structure LdpDelegate where
  identity : LdpIdentityCard
  signingSecret : Option String := none

/-- What the task handler made of a task: its result, or the text of an exception
that is caught. -/
abbrev TaskOutcome := Except String (Value × ℚ)

inductive DelegateCall where
  | uuid4
  | isoNow
  | registeredModes
  | handleTask (skill : String) (inputData : Value) (taskId : String)
  | onSessionStart (sessionId : String) (negotiated : NegotiatedPayload)
  | onSessionEnd (sessionId reason : String)

namespace DelegateCall

/-- A callback answers with the text of an exception that passes through its caller.
From `handleTask` that is one outside `Exception`, or what a caught one leads to when
`str(e)` raises or gives no valid Unicode, which no `LdpError` takes. -/
abbrev Answer : DelegateCall → Type
  | .uuid4 => String
  | .isoNow => String
  | .registeredModes => List PayloadMode
  | .handleTask _ _ _ => Except String TaskOutcome
  | .onSessionStart _ _ => Except String Unit
  | .onSessionEnd _ _ => Except String Unit

/-- The questions that reach the subclass. -/
def IsCallback : DelegateCall → Prop
  | .handleTask _ _ _ | .onSessionStart _ _ | .onSessionEnd _ _ => True
  | _ => False

/-- Any answer may come at any time. -/
def Meaning : InterferedRuns.Meaning DelegateCall Answer Unit := fun _ _ _ _ => True

end DelegateCall

abbrev DelegateProgram := Program DelegateCall DelegateCall.Answer Raised

def uuid4 : DelegateProgram String := Program.call DelegateCall.uuid4

def isoNow : DelegateProgram String := Program.call DelegateCall.isoNow

def registeredModes : DelegateProgram (List PayloadMode) :=
  Program.call DelegateCall.registeredModes

/-- An exception of a callback passes through the caller. -/
def raiseHook {α : Type} : Except String α → DelegateProgram α
  | .ok a => .pure a
  | .error e => .throw (.hook e)

def handleTask (skill : String) (inputData : Value) (taskId : String) :
    DelegateProgram TaskOutcome :=
  Program.call (DelegateCall.handleTask skill inputData taskId) >>= raiseHook

def onSessionStart (sessionId : String) (negotiated : NegotiatedPayload) :
    DelegateProgram Unit :=
  Program.call (DelegateCall.onSessionStart sessionId negotiated) >>= raiseHook

def onSessionEnd (sessionId reason : String) : DelegateProgram Unit :=
  Program.call (DelegateCall.onSessionEnd sessionId reason) >>= raiseHook

namespace LdpDelegate
variable (d : LdpDelegate) (display : Value → String)

/-- The card with the payload modes narrowed to the ones with a codec. -/
def advertisedIdentity (registered : List PayloadMode) : LdpIdentityCard :=
  { d.identity with supportedPayloadModes := d.identity.advertisedPayloadModes registered }

/-- `LdpEnvelope.create` from this delegate to the sender. -/
def create (envelope : LdpEnvelope) (sessionId : String) (body : LdpMessageBody)
    (payloadMode : PayloadMode) : DelegateProgram LdpEnvelope := do
  let messageId ← uuid4
  let timestamp ← isoNow
  pure (LdpEnvelope.create messageId timestamp sessionId d.identity.delegateId envelope.from_
    body payloadMode)

def capabilityEntry (c : LdpCapability) : Value := .object
  [("name", .string c.name), ("description", Value.orNull .string c.description),
    ("quality", Value.orNull QualityMetrics.modelDump c.quality)]

def capabilityList : Value := .array (d.identity.capabilities.map capabilityEntry)

def handleHello (envelope : LdpEnvelope) : DelegateProgram LdpEnvelope :=
  d.create envelope envelope.sessionId (.capabilityManifest d.capabilityList) .text

/-- A lookup in the configuration of a proposal; a missing one has no keys. -/
def configGet (envelope : LdpEnvelope) (key : String) : Option Value :=
  (envelope.body.config.getD []).lookup key

def remoteDomain (envelope : LdpEnvelope) : Value :=
  (configGet envelope "trust_domain").getD (.string "unknown")

/-- Only a string can equal a domain name or occur among the trusted peers. -/
def trustsValue : Value → Bool
  | .string peer => d.identity.trustDomain.trusts peer
  | _ => false

/-- An f-string shows a string as it is. -/
def shown : Value → String
  | .string s => s
  | v => display v

def rejectReason (remoteDomain : Value) : String :=
  "Trust domain '" ++ shown display remoteDomain ++ "' not trusted by '" ++
    d.identity.trustDomain.name ++ "'"

/-- The known modes of the offered list; anything but a list offers nothing. -/
def initiatorModes (envelope : LdpEnvelope) : List PayloadMode :=
  match configGet envelope "preferred_payload_modes" with
  | some (.array items) => items.filterMap asMode
  | _ => []

def handleSessionPropose (envelope : LdpEnvelope) : DelegateProgram LdpEnvelope :=
  if d.trustsValue (remoteDomain envelope) then do
    let sessionId ← uuid4
    let registered ← registeredModes
    let negotiated := PythonIdentity.negotiatePayloadMode (initiatorModes envelope)
      (d.identity.advertisedPayloadModes registered)
    let accept ← d.create envelope sessionId (.sessionAccept sessionId negotiated.mode) .text
    onSessionStart sessionId negotiated
    pure accept
  else
    d.create envelope envelope.sessionId
      (.sessionReject (d.rejectReason display (remoteDomain envelope))) .text

/-- `x or ""`. -/
def orEmpty (field : Option String) : String := field.getD ""

/-- `body.task_id or str(uuid4())`. -/
def taskIdOrNew (envelope : LdpEnvelope) : DelegateProgram String :=
  if truthy envelope.body.taskId then .pure (orEmpty envelope.body.taskId) else uuid4

def resultProvenance (envelope : LdpEnvelope) (confidence : ℚ) (timestamp : String) :
    Provenance :=
  Provenance.normalize
    { producedBy := d.identity.delegateId
      modelVersion := d.identity.modelVersion
      confidence := some confidence
      payloadModeUsed := envelope.payloadMode
      sessionId := some envelope.sessionId
      verificationStatus := .selfVerified
      timestamp := some timestamp }

def handleTaskSubmit (envelope : LdpEnvelope) : DelegateProgram LdpEnvelope := do
  let taskId ← taskIdOrNew envelope
  let outcome ← handleTask (orEmpty envelope.body.skill) envelope.body.input taskId
  match outcome with
  | .ok (output, confidence) =>
      let timestamp ← isoNow
      d.create envelope envelope.sessionId
        (.taskResult taskId output (d.resultProvenance envelope confidence timestamp))
        envelope.payloadMode
  | .error e =>
      d.create envelope envelope.sessionId
        (.taskFailed taskId (LdpError.runtime "TASK_EXECUTION_ERROR" e)) .text

def handleTaskCancel (envelope : LdpEnvelope) : DelegateProgram LdpEnvelope :=
  d.create envelope envelope.sessionId
    (.taskUpdate (orEmpty envelope.body.taskId) (some "cancelled")) .text

def handleSessionClose (envelope : LdpEnvelope) : DelegateProgram LdpEnvelope := do
  onSessionEnd envelope.sessionId (orEmpty envelope.body.reason)
  d.create envelope envelope.sessionId (.sessionClose (some "acknowledged")) .text

def dispatch (envelope : LdpEnvelope) : DelegateProgram LdpEnvelope :=
  if envelope.body.type = "HELLO" then d.handleHello envelope
  else if envelope.body.type = "SESSION_PROPOSE" then d.handleSessionPropose display envelope
  else if envelope.body.type = "TASK_SUBMIT" then d.handleTaskSubmit envelope
  else if envelope.body.type = "TASK_CANCEL" then d.handleTaskCancel envelope
  else if envelope.body.type = "SESSION_CLOSE" then d.handleSessionClose envelope
  else d.create envelope envelope.sessionId
    (.taskFailedText (orEmpty envelope.body.taskId)
      ("Unknown message type: " ++ envelope.body.type)) .text

/-- Whether the message passes the signature check, which an empty secret and
an empty or missing signature skip. -/
def signaturePasses (hmac : Hmac) (envelope : LdpEnvelope) : Except Raised Bool :=
  match d.signingSecret, envelope.signature with
  | some secret, some signature =>
      if secret = "" ∨ signature = "" then .ok true
      else PythonSigning.verifyEnvelope hmac envelope secret signature
  | _, _ => .ok true

def handleMessage (hmac : Hmac) (envelope : LdpEnvelope) : DelegateProgram LdpEnvelope := do
  let passes ← Program.ofExcept (d.signaturePasses hmac envelope)
  if passes then
    let response ← d.dispatch display envelope
    pure (PythonSigning.signIfConfigured hmac d.signingSecret response)
  else
    d.create envelope envelope.sessionId
      (.taskFailedText (orEmpty envelope.body.taskId) "Invalid message signature") .text

end LdpDelegate
end LdpProtocol.PythonDelegate
