import LdpProtocol.InterferedRuns
import LdpProtocol.EnvelopeSigning

/-!
# The Rust server

`handleMessage` checks the signature, dispatches on the body and signs the
response. The two lock-protected maps, the task handler, the clock and the id
generator are its surroundings; each acquisition of a lock is one question, so
two concurrent calls can interleave between any two of them. The handler may
answer anything.
-/
namespace LdpProtocol.ServerHandlers
open InteractivePrograms InterferedRuns
open JsonValues PayloadModes DelegateIdentity MessageTypes EnvelopeSigning

structure LdpServer where
  identity : LdpIdentityCard
  signingSecret : Option String := none

inductive TaskRecordState where
  | submitted | working | completed | failed
  deriving DecidableEq, Repr

/-- The Debug form of a task state in lower case. -/
def TaskRecordState.debugLower : TaskRecordState → String
  | .submitted => "submitted"
  | .working => "working"
  | .completed => "completed"
  | .failed => "failed"

/-- Internal task tracking record. -/
structure TaskRecord where
  taskId : String
  skill : String
  state : TaskRecordState
  output : Option Value
  error : Option String

structure ServerState where
  sessions : AList fun _ : String => LdpSession
  tasks : AList fun _ : String => TaskRecord

def ServerState.empty : ServerState := ⟨∅, ∅⟩

inductive ServerCall where
  | newV4
  | utcNow
  | utcNowRfc3339
  | handler (skill : String) (input : Value)
  | insertSession (sessionId : String) (session : LdpSession)
  | getSession (sessionId : String)
  | removeSession (sessionId : String)
  | insertTask (taskId : String) (record : TaskRecord)
  | getTask (taskId : String)
  | removeTask (taskId : String)

namespace ServerCall

abbrev Answer : ServerCall → Type
  | .newV4 => String
  | .utcNow => ℤ
  | .utcNowRfc3339 => String
  | .handler _ _ => Value
  | .insertSession _ _ => Unit
  | .getSession _ => Option LdpSession
  | .removeSession _ => Unit
  | .insertTask _ _ => Unit
  | .getTask _ => Option TaskRecord
  | .removeTask _ => Unit

def effect : ServerCall → ServerState → ServerState
  | .insertSession sessionId session, s =>
      { s with sessions := s.sessions.insert sessionId session }
  | .removeSession sessionId, s => { s with sessions := s.sessions.erase sessionId }
  | .insertTask taskId record, s => { s with tasks := s.tasks.insert taskId record }
  | .removeTask taskId, s => { s with tasks := s.tasks.erase taskId }
  | _, s => s

/-- The answers a question may get; ids, clock readings and outputs are free. -/
def Answers : (q : ServerCall) → ServerState → q.Answer → Prop
  | .getSession sessionId, s, a => a = s.sessions.lookup sessionId
  | .getTask taskId, s, a => a = s.tasks.lookup taskId
  | _, _, _ => True

def Meaning : InterferedRuns.Meaning ServerCall Answer ServerState :=
  fun q s a t => q.Answers s a ∧ t = q.effect s

/-- Questions that change no map and run no handler. -/
def Passive : ServerCall → Prop
  | .newV4 | .utcNow | .utcNowRfc3339 | .getSession _ | .getTask _ => True
  | _ => False

theorem effect_of_passive {q : ServerCall} (h : q.Passive) (s : ServerState) :
    q.effect s = s := by
  cases q <;> first | rfl | exact h.elim

end ServerCall

abbrev ServerProgram := Program ServerCall ServerCall.Answer String

def newV4 : ServerProgram String := Program.call ServerCall.newV4

def utcNow : ServerProgram ℤ := Program.call ServerCall.utcNow

def utcNowRfc3339 : ServerProgram String := Program.call ServerCall.utcNowRfc3339

def runHandler (skill : String) (input : Value) : ServerProgram Value :=
  Program.call (ServerCall.handler skill input)

def insertSession (sessionId : String) (session : LdpSession) : ServerProgram Unit :=
  Program.call (ServerCall.insertSession sessionId session)

def getSession (sessionId : String) : ServerProgram (Option LdpSession) :=
  Program.call (ServerCall.getSession sessionId)

def removeSession (sessionId : String) : ServerProgram Unit :=
  Program.call (ServerCall.removeSession sessionId)

def insertTask (taskId : String) (record : TaskRecord) : ServerProgram Unit :=
  Program.call (ServerCall.insertTask taskId record)

def getTask (taskId : String) : ServerProgram (Option TaskRecord) :=
  Program.call (ServerCall.getTask taskId)

def removeTask (taskId : String) : ServerProgram Unit :=
  Program.call (ServerCall.removeTask taskId)

namespace LdpServer
variable (srv : LdpServer)

/-- A response to the sender in the envelope's session. -/
def response (envelope : LdpEnvelope) (messageId timestamp : String) (body : LdpMessageBody)
    (payloadMode : PayloadMode) : LdpEnvelope :=
  LdpEnvelope.new messageId timestamp envelope.sessionId srv.identity.delegateId envelope.from_
    body payloadMode

/-- `LdpEnvelope::new`, which draws a message id and reads the clock. -/
def respond (envelope : LdpEnvelope) (body : LdpMessageBody) (payloadMode : PayloadMode) :
    ServerProgram LdpEnvelope := do
  let messageId ← newV4
  let timestamp ← utcNowRfc3339
  pure (srv.response envelope messageId timestamp body payloadMode)

def capabilities : Value := .object
  [("capabilities", .array (srv.identity.capabilities.map LdpCapability.toValue)),
    ("supported_modes", .array (srv.identity.supportedPayloadModes.map PayloadMode.toValue))]

def handleHello (envelope : LdpEnvelope) : ServerProgram LdpEnvelope :=
  srv.respond envelope (.capabilityManifest srv.capabilities) .text

/-- The trust domain a proposal declares. -/
def remoteDomain (config : Value) : String :=
  ((config.get "trust_domain").bind Value.asStr).getD "unknown"

def requestedMode (config : Value) : PayloadMode :=
  ((config.get "payload_mode").bind PayloadMode.fromValue).getD .semanticFrame

def ttlSecs (config : Value) : UInt64 :=
  ((config.get "ttl_secs").bind Value.asU64).getD 3600

def trustReason (remoteDomain : String) : String :=
  "Trust domain '" ++ remoteDomain ++ "' not trusted by '" ++ srv.identity.trustDomain.name ++ "'"

/-- The server negotiates with the requested mode and text. -/
def negotiated (config : Value) : NegotiatedPayload :=
  negotiatePayloadMode [requestedMode config, .text] srv.identity.supportedPayloadModes

/-- The session a proposal opens. -/
def proposedSession (envelope : LdpEnvelope) (config : Value) (now : ℤ) : LdpSession where
  sessionId := envelope.sessionId
  remoteUrl := ""
  remoteDelegateId := envelope.from_
  state := .active
  payload := srv.negotiated config
  trustDomain := srv.identity.trustDomain
  createdAt := now
  lastUsed := now
  ttlSecs := ttlSecs config
  taskCount := 0

def handleSessionPropose (envelope : LdpEnvelope) (config : Value) :
    ServerProgram LdpEnvelope :=
  if srv.identity.trustDomain.trusts (remoteDomain config) then do
    let now ← utcNow
    insertSession envelope.sessionId (srv.proposedSession envelope config now)
    srv.respond envelope (.sessionAccept envelope.sessionId (srv.negotiated config).mode) .text
  else
    let reason := srv.trustReason (remoteDomain config)
    srv.respond envelope
      (.sessionReject reason (some (LdpError.policy "TRUST_VIOLATION" reason))) .text

/-- Provenance of a completed task, with both verification fields set. -/
def completedProvenance (timestamp : String) : Provenance :=
  { Provenance.new srv.identity.delegateId srv.identity.modelVersion timestamp with
    verificationStatus := .selfVerified
    verified := true }

def resultProvenance : ServerProgram Provenance := do
  let timestamp ← utcNowRfc3339
  pure (srv.completedProvenance timestamp)

def completedRecord (taskId skill : String) (output : Value) : TaskRecord :=
  ⟨taskId, skill, .completed, some output, none⟩

/-- The mode of the session the envelope names, if the server holds it. -/
def sessionMode (session : Option LdpSession) : PayloadMode :=
  (session.map fun s => s.payload.mode).getD .text

def handleTaskSubmit (envelope : LdpEnvelope) (taskId skill : String) (input : Value) :
    ServerProgram LdpEnvelope := do
  let output ← runHandler skill input
  insertTask taskId (completedRecord taskId skill output)
  let provenance ← srv.resultProvenance
  let session ← getSession envelope.sessionId
  srv.respond envelope (.taskResult taskId output provenance) (sessionMode session)

def handleTaskStatusQuery (envelope : LdpEnvelope) (taskId : String) :
    ServerProgram LdpEnvelope := do
  let found ← getTask taskId
  match found with
  | none => .throw ("Unknown task: " ++ taskId)
  | some record =>
      match record.state with
      | .completed =>
          let provenance ← srv.resultProvenance
          srv.respond envelope
            (.taskResult taskId (record.output.getD .null) provenance) .text
      | .failed =>
          srv.respond envelope (.taskFailed taskId
            (LdpError.runtime "TASK_FAILED" (record.error.getD "unknown error"))) .text
      | state =>
          srv.respond envelope
            (.taskUpdate taskId none (some state.debugLower)) .text

def handleTaskCancel (envelope : LdpEnvelope) (taskId : String) : ServerProgram LdpEnvelope := do
  removeTask taskId
  srv.respond envelope
    (.taskFailed taskId (LdpError.runtime "CANCELLED" "Task cancelled by client")) .text

def handleSessionClose (envelope : LdpEnvelope) : ServerProgram LdpEnvelope := do
  removeSession envelope.sessionId
  srv.respond envelope (.sessionClose (some "acknowledged")) .text

/-- The match of `handle_message` on the body. -/
def dispatch (envelope : LdpEnvelope) : ServerProgram LdpEnvelope :=
  match envelope.body with
  | .hello _ _ => srv.handleHello envelope
  | .sessionPropose config => srv.handleSessionPropose envelope config
  | .taskSubmit taskId skill input _ => srv.handleTaskSubmit envelope taskId skill input
  | .taskUpdate taskId _ _ => srv.handleTaskStatusQuery envelope taskId
  | .taskCancel taskId => srv.handleTaskCancel envelope taskId
  | .sessionClose _ => srv.handleSessionClose envelope
  | _ => .throw "Unhandled message type"

/-- The signature check; an unsigned HELLO passes as first contact. -/
def signatureError (hmac : Hmac) (envelope : LdpEnvelope) : Option String :=
  match srv.signingSecret with
  | none => none
  | some secret =>
      match envelope.signature with
      | some sig =>
          if verifyEnvelope hmac envelope secret sig then none
          else some "Invalid message signature"
      | none =>
          match envelope.body with
          | .hello _ _ => none
          | _ => some "Message signature required but not provided"

def handleMessage (hmac : Hmac) (envelope : LdpEnvelope) : ServerProgram LdpEnvelope :=
  match srv.signatureError hmac envelope with
  | some error => .throw error
  | none => do
      let response ← srv.dispatch envelope
      pure (signIfConfigured hmac srv.signingSecret response)

/-- The test server of the source. Its handler is part of `ServerCall.echo`. -/
def echoServer (delegateId name : String) : LdpServer where
  identity := {
    delegateId := delegateId
    name := name
    description := some "Echo test server"
    modelFamily := "TestModel"
    modelVersion := "1.0"
    trustDomain := { name := "test-domain" }
    contextWindow := 4096
    reasoningProfile := some "analytical"
    costProfile := some "low"
    latencyProfile := some "p50:100ms"
    capabilities := [{ name := "echo", description := some "Echoes input back" }]
    supportedPayloadModes := [.semanticFrame, .text]
    endpoint := "" }

end LdpServer

/-- Surroundings with an echo handler, a stopped clock and one id. -/
def ServerCall.echo : (q : ServerCall) → ServerState → q.Answer × ServerState
  | .newV4, s => ("9f1c1f0e-6f7e-4a0b-9a55-0d6a3b1c2d4e", s)
  | .utcNow, s => (0, s)
  | .utcNowRfc3339, s => ("1970-01-01T00:00:00+00:00", s)
  | .handler _ input, s => (.object [("echo", input)], s)
  | .getSession sessionId, s => (s.sessions.lookup sessionId, s)
  | .getTask taskId, s => (s.tasks.lookup taskId, s)
  | .insertSession sessionId session, s =>
      ((), ServerCall.effect (.insertSession sessionId session) s)
  | .removeSession sessionId, s => ((), ServerCall.effect (.removeSession sessionId) s)
  | .insertTask taskId record, s => ((), ServerCall.effect (.insertTask taskId record) s)
  | .removeTask taskId, s => ((), ServerCall.effect (.removeTask taskId) s)

theorem ServerCall.echo_meaning (q : ServerCall) (s : ServerState) :
    ServerCall.Meaning q s (q.echo s).1 (q.echo s).2 := by
  cases q <;> exact ⟨by trivial, rfl⟩

end LdpProtocol.ServerHandlers
