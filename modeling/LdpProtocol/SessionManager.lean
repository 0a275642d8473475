import LdpProtocol.InterferedRuns
import LdpProtocol.WireFormat
import LdpProtocol.EnvelopeSigning

/-!
# The Rust client's session manager

Sessions are cached by remote URL. The maps, the clock, the id generator and the
network are the surroundings; a message exchange is one question, answered with
the response or an error text. What the network answers is left open here.
-/
namespace LdpProtocol.SessionManager
open InteractivePrograms InterferedRuns
open JsonValues PayloadModes DelegateIdentity MessageTypes EnvelopeSigning

/-- Configuration for establishing a new LDP session. -/
structure SessionConfig where
  preferredPayloadModes : List PayloadMode := [.semanticFrame, .text]
  ttlSecs : UInt64 := 3600
  requiredTrustDomain : Option String := none

structure LdpAdapterConfig where
  delegateId : String := "ldp:delegate:local"
  trustDomain : TrustDomain := { name := "default" }
  session : SessionConfig := {}
  enforceTrustDomains : Bool := true
  attachProvenance : Bool := true
  signingSecret : Option String := none

structure ClientState where
  sessions : AList fun _ : String => LdpSession
  contracts : AList fun _ : String => DelegationContract

def ClientState.empty : ClientState := ⟨∅, ∅⟩

inductive ClientCall where
  | newV4
  | utcNow
  | utcNowRfc3339
  | sendMessage (url : String) (message : LdpEnvelope)
  | getSession (url : String)
  | insertSession (url : String) (session : LdpSession)
  | touchSession (url : String)
  | removeSession (url : String)
  | sessionUrls
  | insertContract (taskId : String) (contract : DelegationContract)
  | getContract (taskId : String)

/-- `session.touch()` and the count, under one write lock. -/
def touched (sessions : AList fun _ : String => LdpSession) (url : String) (now : ℤ) :
    AList fun _ : String => LdpSession :=
  match sessions.lookup url with
  | some session =>
      sessions.replace url { session with lastUsed := now, taskCount := session.taskCount + 1 }
  | none => sessions

namespace ClientCall

abbrev Answer : ClientCall → Type
  | .newV4 => String
  | .utcNow => ℤ
  | .utcNowRfc3339 => String
  | .sendMessage _ _ => Except String LdpEnvelope
  | .getSession _ => Option LdpSession
  | .insertSession _ _ => Unit
  | .touchSession _ => Unit
  | .removeSession _ => Option LdpSession
  | .sessionUrls => List String
  | .insertContract _ _ => Unit
  | .getContract _ => Option DelegationContract

/-- The client's own maps; ids, clock readings and responses are free. -/
def Meaning : InterferedRuns.Meaning ClientCall Answer ClientState
  | .getSession url, s, a, t => a = s.sessions.lookup url ∧ t = s
  | .insertSession url session, s, _, t =>
      t = { s with sessions := s.sessions.insert url session }
  | .touchSession url, s, _, t => ∃ now, t = { s with sessions := touched s.sessions url now }
  | .removeSession url, s, a, t =>
      a = s.sessions.lookup url ∧ t = { s with sessions := s.sessions.erase url }
  | .sessionUrls, s, a, t => a.Perm s.sessions.keys ∧ t = s
  | .insertContract taskId contract, s, _, t =>
      t = { s with contracts := s.contracts.insert taskId contract }
  | .getContract taskId, s, a, t => a = s.contracts.lookup taskId ∧ t = s
  | _, s, _, t => t = s

/-- Surroundings without a network, with a stopped clock; every id drawn is the
same. -/
def offline : (q : ClientCall) → ClientState → q.Answer × ClientState
  | .newV4, s => ("9f1c1f0e-6f7e-4a0b-9a55-0d6a3b1c2d4e", s)
  | .utcNow, s => (0, s)
  | .utcNowRfc3339, s => ("1970-01-01T00:00:00+00:00", s)
  | .sendMessage _ _, s => (.error "connection refused", s)
  | .getSession url, s => (s.sessions.lookup url, s)
  | .insertSession url session, s => ((), { s with sessions := s.sessions.insert url session })
  | .touchSession url, s => ((), { s with sessions := touched s.sessions url 0 })
  | .removeSession url, s =>
      (s.sessions.lookup url, { s with sessions := s.sessions.erase url })
  | .sessionUrls, s => (s.sessions.keys, s)
  | .insertContract taskId contract, s =>
      ((), { s with contracts := s.contracts.insert taskId contract })
  | .getContract taskId, s => (s.contracts.lookup taskId, s)

theorem offline_meaning (q : ClientCall) (s : ClientState) :
    ClientCall.Meaning q s (q.offline s).1 (q.offline s).2 := by
  cases q with
  | touchSession url => exact ⟨0, rfl⟩
  | sessionUrls => exact ⟨.refl _, rfl⟩
  | _ => simp [offline, Meaning]

end ClientCall

abbrev ClientProgram := Program ClientCall ClientCall.Answer String

def newV4 : ClientProgram String := Program.call ClientCall.newV4

def utcNow : ClientProgram ℤ := Program.call ClientCall.utcNow

def utcNowRfc3339 : ClientProgram String := Program.call ClientCall.utcNowRfc3339

def sendMessage (url : String) (message : LdpEnvelope) :
    ClientProgram (Except String LdpEnvelope) :=
  Program.call (ClientCall.sendMessage url message)

def getSession (url : String) : ClientProgram (Option LdpSession) :=
  Program.call (ClientCall.getSession url)

def insertSession (url : String) (session : LdpSession) : ClientProgram Unit :=
  Program.call (ClientCall.insertSession url session)

def touchSession (url : String) : ClientProgram Unit :=
  Program.call (ClientCall.touchSession url)

def removeSession (url : String) : ClientProgram (Option LdpSession) :=
  Program.call (ClientCall.removeSession url)

def sessionUrls : ClientProgram (List String) := Program.call ClientCall.sessionUrls

def insertContract (taskId : String) (contract : DelegationContract) : ClientProgram Unit :=
  Program.call (ClientCall.insertContract taskId contract)

def getContract (taskId : String) : ClientProgram (Option DelegationContract) :=
  Program.call (ClientCall.getContract taskId)

/-- `LdpEnvelope::new`. -/
def newEnvelope (sessionId from_ to_ : String) (body : LdpMessageBody)
    (payloadMode : PayloadMode) : ClientProgram LdpEnvelope := do
  let messageId ← newV4
  let timestamp ← utcNowRfc3339
  pure (LdpEnvelope.new messageId timestamp sessionId from_ to_ body payloadMode)

/-- What is done with a new envelope need only be checked on envelopes with the
given body. -/
theorem newEnvelope_uses {α : Type} {R : (q : ClientCall) → q.Answer → Prop}
    {P : ClientCall → Prop} {sessionId from_ to_ : String} {body : LdpMessageBody}
    {payloadMode : PayloadMode} {f : LdpEnvelope → ClientProgram α}
    (hid : P .newV4) (hclock : P .utcNowRfc3339)
    (hf : ∀ e, e.body = body → (f e).Uses R P) :
    (newEnvelope sessionId from_ to_ body payloadMode >>= f).Uses R P := by
  unfold newEnvelope newV4 utcNowRfc3339
  simp only [Program.call_bind, Program.pure_eq, Program.ask_bind, Program.pure_bind_eq,
    Program.uses_ask]
  exact ⟨hid, fun _ _ => ⟨hclock, fun _ _ => hf _ rfl⟩⟩

/-- The cast `as i64`, which wraps. -/
def asI64 (n : UInt64) : ℤ := if n.toNat < 2 ^ 63 then n.toNat else n.toNat - 2 ^ 64

/-- Whole seconds between two instants, truncated towards zero. -/
def secondsSince (now lastUsed : ℤ) : ℤ := (now - lastUsed).tdiv 1000000000

/-- `LdpSession::is_active`; the clock is only read for an active state. -/
def isActive (session : LdpSession) : ClientProgram Bool :=
  if session.state = .active then do
    let now ← utcNow
    pure (decide (secondsSince now session.lastUsed < asI64 session.ttlSecs))
  else pure false

section
variable (hmac : Hmac) (config : LdpAdapterConfig)

/-- "Sign if configured", then send; an error ends the caller. -/
def sendSigned (url : String) (envelope : LdpEnvelope) : ClientProgram LdpEnvelope := do
  let response ← sendMessage url (signIfConfigured hmac config.signingSecret envelope)
  Program.ofExcept response

/-- The modes a manifest names; text where it names none that can be read. -/
def remoteModes (capabilities : Value) : List PayloadMode :=
  ((capabilities.get "supported_modes").bind (Value.asArray PayloadMode.fromValue)).getD [.text]

def proposeConfig (mode : PayloadMode) : Value := .object
  [("payload_mode", mode.toValue), ("ttl_secs", .ofU64 config.session.ttlSecs),
    ("trust_domain", .string config.trustDomain.name)]

/-- The session the client keeps after an acceptance. -/
def establishedSession (url acceptedId remoteDelegateId : String) (payload : NegotiatedPayload)
    (now : ℤ) : LdpSession where
  sessionId := acceptedId
  remoteUrl := url
  remoteDelegateId := remoteDelegateId
  state := .active
  payload := payload
  trustDomain := config.trustDomain
  createdAt := now
  lastUsed := now
  ttlSecs := config.session.ttlSecs
  taskCount := 0

/-- The last step of the handshake, on the response to SESSION_PROPOSE. -/
def finishHandshake (url remoteDelegateId : String) (negotiated : NegotiatedPayload)
    (response : LdpEnvelope) : ClientProgram LdpSession :=
  match response.body with
  | .sessionAccept acceptedId _ => do
      let now ← utcNow
      pure (establishedSession config url acceptedId remoteDelegateId negotiated now)
  | .sessionReject _ (some err) =>
      .throw ("Session rejected: [" ++ err.code ++ "] " ++ err.message)
  | .sessionReject reason none => .throw ("Session rejected by remote: " ++ reason)
  | other => .throw ("Expected SESSION_ACCEPT/REJECT, got: " ++ other.discriminant)

/-- The proposal and what follows it, once the remote modes are known. -/
def proposeSession (url remoteDelegateId : String) (remote : List PayloadMode) :
    ClientProgram LdpSession := do
  let negotiated := negotiatePayloadMode config.session.preferredPayloadModes remote
  let sessionId ← newV4
  let propose ← newEnvelope sessionId config.delegateId remoteDelegateId
    (.sessionPropose (proposeConfig config negotiated.mode)) .text
  let response ← sendSigned hmac config url propose
  finishHandshake config url remoteDelegateId negotiated response

def establishSession (url : String) : ClientProgram LdpSession := do
  let hello ← newEnvelope "" config.delegateId url
    (.hello config.delegateId config.session.preferredPayloadModes) .text
  let response ← sendSigned hmac config url hello
  match response.body with
  | .capabilityManifest capabilities =>
      proposeSession hmac config url response.from_ (remoteModes capabilities)
  | other =>
      .throw ("Expected CAPABILITY_MANIFEST response to HELLO, got: " ++ other.discriminant)

/-- The handshake and the insertion into the cache. -/
def establishAndCache (url : String) : ClientProgram LdpSession := do
  let session ← establishSession hmac config url
  insertSession url session
  pure session

def getOrEstablish (url : String) : ClientProgram LdpSession := do
  let cached ← getSession url
  match cached with
  | some session => do
      let active ← isActive session
      if active then pure session else establishAndCache hmac config url
  | none => establishAndCache hmac config url

def touch (url : String) : ClientProgram Unit := touchSession url

/-- Close a session. The message is sent as it was built; whatever comes back
is ignored. -/
def close (url : String) : ClientProgram Unit := do
  let removed ← removeSession url
  match removed with
  | some session => do
      let closeMsg ← newEnvelope session.sessionId config.delegateId session.remoteDelegateId
        (.sessionClose none) session.payload.mode
      let _ ← sendMessage url closeMsg
      pure ()
  | none => pure ()

def closeEach : List String → ClientProgram Unit
  | [] => pure ()
  | url :: urls => do
      close config url
      closeEach urls

def closeAll : ClientProgram Unit := do
  let urls ← sessionUrls
  closeEach config urls

end
end LdpProtocol.SessionManager
