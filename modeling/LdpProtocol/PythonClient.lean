import LdpProtocol.InterferedRuns
import LdpProtocol.PythonIdentity
import LdpProtocol.PythonSigning

/-!
# The Python client

`discover` and `establish_session`. The HTTP client, the sessions dictionary, the
id generator, the clock and the codec registry are its surroundings. The chosen
mode is written over the default of the session's payload, whose fallback chain
stays what it is.
-/
namespace LdpProtocol.PythonClient
open InteractivePrograms InterferedRuns
open JsonValues PayloadModes EnvelopeSigning PythonMessages PythonSigning PythonIdentity
open DelegateIdentity (TrustDomain)
open MessageTypes (SessionState)

structure SessionConfig where
  preferredPayloadModes : List PayloadMode := [.semanticFrame, .text]
  ttlSecs : ℤ := 3600
  requiredTrustDomain : Option String := none

/-- An active LDP session; instants are nanoseconds of UTC. -/
structure LdpSession where
  sessionId : String
  remoteUrl : String
  remoteDelegateId : String
  state : SessionState := .active
  payload : NegotiatedPayload := ⟨.semanticFrame, [.text]⟩
  trustDomain : TrustDomain
  createdAt : ℤ
  lastUsed : ℤ
  ttlSecs : ℤ := 3600
  taskCount : ℕ := 0

structure LdpClient where
  delegateId : String := "ldp:client:default"
  config : SessionConfig := {}
  trustDomain : TrustDomain := { name := "default" }
  enforceTrustDomains : Bool := true
  signingSecret : Option String := none

abbrev Sessions := AList fun _ : String => LdpSession

inductive ClientCall where
  | uuid4
  | isoNow
  | utcNow
  | registeredModes
  | defaults
  | postMessage (url : String) (document : Value)
  | getIdentity (url : String)
  | setSession (url : String) (session : LdpSession)

namespace ClientCall

/-- `postMessage` and `getIdentity` answer with the JSON of a successful
response; `defaults` with what the default factories of a validation make. -/
abbrev Answer : ClientCall → Type
  | .uuid4 => String
  | .isoNow => String
  | .utcNow => ℤ
  | .registeredModes => List PayloadMode
  | .defaults => Factories
  | .postMessage _ _ => Except String Value
  | .getIdentity _ => Except String Value
  | .setSession _ _ => Unit

end ClientCall

abbrev ClientProgram := Program ClientCall ClientCall.Answer Raised

def uuid4 : ClientProgram String := Program.call ClientCall.uuid4

def isoNow : ClientProgram String := Program.call ClientCall.isoNow

def utcNow : ClientProgram ℤ := Program.call ClientCall.utcNow

def registeredModes : ClientProgram (List PayloadMode) := Program.call ClientCall.registeredModes

/-- A request whose failure raises. -/
def raiseForStatus : Except String Value → ClientProgram Value
  | .ok document => .pure document
  | .error text => .throw (.httpStatusError text)

/-- `model_validate`, which raises on anything the model refuses. -/
def validated {α : Type} : Option α → ClientProgram α
  | some a => .pure a
  | none => .throw .validationError

def setSession (url : String) (session : LdpSession) : ClientProgram Unit :=
  Program.call (ClientCall.setSession url session)

/-- `LdpEnvelope.create` with the default payload mode. -/
def create (sessionId fromId toId : String) (body : LdpMessageBody) :
    ClientProgram LdpEnvelope := do
  let messageId ← uuid4
  let timestamp ← isoNow
  pure (LdpEnvelope.create messageId timestamp sessionId fromId toId body .text)

namespace LdpClient
variable (client : LdpClient) (hmac : Hmac)

def distrust (name : String) : Raised := .connectionError
  ("Trust domain '" ++ name ++ "' is not trusted by '" ++ client.trustDomain.name ++ "'")

/-- The check of a fetched card. -/
def trusted (identity : LdpIdentityCard) : ClientProgram LdpIdentityCard :=
  if client.enforceTrustDomains && !client.trustDomain.trusts identity.trustDomain.name then
    .throw (client.distrust identity.trustDomain.name)
  else .pure identity

def discover (url : String) : ClientProgram LdpIdentityCard := do
  let answer ← Program.call (ClientCall.getIdentity url)
  let document ← raiseForStatus answer
  let identity ← validated (LdpIdentityCard.modelValidate document)
  client.trusted identity

def sendMessage (url : String) (envelope : LdpEnvelope) : ClientProgram LdpEnvelope := do
  let answer ← Program.call (ClientCall.postMessage url
    (PythonSigning.signIfConfigured hmac client.signingSecret envelope).modelDump)
  let document ← raiseForStatus answer
  let made ← Program.call ClientCall.defaults
  validated (LdpEnvelope.modelValidate made document)

/-- The preferred modes this process has a codec for. -/
def advertisedModes (registered : List PayloadMode) : List PayloadMode :=
  client.config.preferredPayloadModes.filter (isImplemented registered)

def proposeConfig (advertised : List PayloadMode) : List (String × Value) :=
  [("preferred_payload_modes", .array (advertised.map PayloadMode.toValue)),
    ("ttl_secs", ofInt client.config.ttlSecs), ("trust_domain", .string client.trustDomain.name)]

/-- What a rejection raises, by the kind of its error field. -/
def rejected (body : LdpMessageBody) : Raised :=
  match body.error with
  | some (.error e) => .connectionError ("Session rejected [" ++ e.code ++ "]: " ++ e.message)
  | _ => .connectionError ("Session rejected: " ++ body.reason.getD "None")

def notAdvertised (mode : PayloadMode) : Raised := .connectionError
  ("Responder negotiated payload mode '" ++ mode.wireName ++
    "', which this client did not advertise and cannot encode")

/-- `propose_resp.body.session_id or session_id`. -/
def acceptedId (body : LdpMessageBody) (sessionId : String) : String :=
  if truthy body.sessionId then body.sessionId.getD "" else sessionId

/-- The session as it is constructed, then its mode overwritten. -/
def newSession (url sessionId : String) (identity : LdpIdentityCard) (mode : PayloadMode)
    (createdAt lastUsed : ℤ) : LdpSession :=
  let session : LdpSession :=
    { sessionId, remoteUrl := url, remoteDelegateId := identity.delegateId,
      trustDomain := identity.trustDomain, createdAt, lastUsed,
      ttlSecs := client.config.ttlSecs }
  { session with payload := { session.payload with mode := mode } }

/-- The rest of the handshake for an answer that is no rejection. -/
def openSession (url sessionId : String) (advertised : List PayloadMode) (body : LdpMessageBody) :
    ClientProgram LdpSession :=
  let mode := body.negotiatedMode.getD .text
  if mode ≠ .text ∧ mode ∉ advertised then .throw (notAdvertised mode)
  else do
    let identity ← client.discover url
    let createdAt ← utcNow
    let lastUsed ← utcNow
    let session :=
      client.newSession url (acceptedId body sessionId) identity mode createdAt lastUsed
    setSession url session
    pure session

def proposeSession (url : String) (advertised : List PayloadMode) : ClientProgram LdpSession := do
  let sessionId ← uuid4
  let propose ← create sessionId client.delegateId url
    (.sessionPropose (client.proposeConfig advertised))
  let answer ← client.sendMessage hmac url propose
  if answer.body.type = "SESSION_REJECT" then .throw (rejected answer.body)
  else client.openSession url sessionId advertised answer.body

/-- The response to HELLO is not looked at. -/
def establishSession (url : String) : ClientProgram LdpSession := do
  let registered ← registeredModes
  let advertised := client.advertisedModes registered
  let hello ← create "" client.delegateId url (.hello client.delegateId advertised)
  let _ ← client.sendMessage hmac url hello
  client.proposeSession hmac url advertised

end LdpClient
end LdpProtocol.PythonClient
