import LdpProtocol.LdpAdapter
import LdpProtocol.PythonClient
import LdpProtocol.TranslatedPrograms

/-!
# Sessions and tasks of the Python client

`get_or_establish_session` and `submit_task` over the handshake. A session is an
object: the one a task is submitted in may be the one in the dictionary, or one
that the caller kept. Its use is then counted on that object; which entries of
the dictionary show this is left open. How a deadline text is parsed is a
parameter, since a text without an offset is parsed but cannot be compared.
-/
namespace LdpProtocol.PythonTasks
open InteractivePrograms InterferedRuns TranslatedPrograms
open JsonValues PayloadModes EnvelopeSigning PythonMessages PythonSigning PythonIdentity
open PythonClient
open LdpAdapter (exceeds)
open MessageTypes (FailurePolicy)

/-- What `datetime.fromisoformat` makes of a text. -/
inductive Deadline where
  | aware (instant : ℤ)
  | naive

/-- What the client says about the contract of a task. -/
structure Verdict where
  contractId : String
  contractSatisfied : Bool
  contractViolations : List String

/-- What `submit_task` returns: a result, or the type of an answer that is none. -/
inductive TaskReport where
  | result (taskId : Option String) (output : Value) (provenance : Option Value)
      (verdict : Option Verdict)
  | pending (taskId status : String) (message : Option String)

/-- What a call raises. -/
inductive Failure where
  | raised (error : Raised)
  | runtimeError (message : String)
  | contractViolation (message : String) (result : TaskReport)

inductive TaskCall where
  | client (q : ClientCall)
  | getSession (url : String)
  | touch (session : LdpSession)
  | registerPayloadMode (mode : PayloadMode)

abbrev TaskCall.Answer : TaskCall → Type
  | .client q => q.Answer
  | .getSession _ => Option LdpSession
  | .touch _ => Unit
  | .registerPayloadMode _ => Unit

abbrev TaskProgram := Program TaskCall TaskCall.Answer Failure

def lifted {α : Type} (p : ClientProgram α) : TaskProgram α :=
  translate TaskCall.client (fun _ a => a) Failure.raised p

def getSession (url : String) : TaskProgram (Option LdpSession) :=
  Program.call (TaskCall.getSession url)

/-- `session.touch()` and the count, with no await in between. -/
def touch (session : LdpSession) : TaskProgram Unit := Program.call (TaskCall.touch session)

def registerPayloadMode (mode : PayloadMode) : TaskProgram Unit :=
  Program.call (TaskCall.registerPayloadMode mode)

def now : TaskProgram ℤ := lifted PythonClient.utcNow

/-- `LdpSession.is_active`; the clock is only read for an active state. -/
def isActive (session : LdpSession) : TaskProgram Bool :=
  if session.state = .active then do
    let read ← now
    pure (decide (read - session.lastUsed < session.ttlSecs * 1000000000))
  else pure false

section
variable (fromIsoFormat : String → Option Deadline)

/-- An empty text counts as none, and so does one that cannot be parsed; the clock
is read before the comparison. -/
def deadlineViolations (contract : DelegationContract) : TaskProgram (List String) :=
  match contract.deadline.bind fun text => if text = "" then none else fromIsoFormat text with
  | some (.aware deadline) => do
      let read ← now
      pure (if read > deadline then ["deadline_exceeded"] else [])
  | some .naive => do
      let _ ← now
      .throw (.raised (.typeError "can't compare offset-naive and offset-aware datetimes"))
  | none => pure []

def budgetViolations (contract : DelegationContract) (provenance : Provenance) : List String :=
  match contract.policy.budget with
  | some budget =>
      exceeds "budget_tokens_exceeded" budget.maxTokens provenance.tokensUsed ++
        exceeds "budget_cost_exceeded" budget.maxCostUsd provenance.costUsd
  | none => []

/-- Validate a result against a contract. Returns violation codes. -/
def validateContract (contract : DelegationContract) (provenance : Provenance) :
    TaskProgram (List String) := do
  let late ← deadlineViolations fromIsoFormat contract
  pure (late ++ budgetViolations contract provenance)

/-- What becomes of a result; a contract is looked at only beside a provenance. -/
def concludeResult (contract : Option DelegationContract) (body : LdpMessageBody) :
    TaskProgram TaskReport :=
  let provenance := body.provenance.map Provenance.modelDump
  match contract, body.provenance with
  | some contract, some given => do
      let violations ← validateContract fromIsoFormat contract given
      let result : TaskReport := .result body.taskId body.output provenance
        (some ⟨contract.contractId, violations.isEmpty, violations⟩)
      if violations ≠ [] ∧ contract.policy.failurePolicy = .failClosed then
        .throw (.contractViolation ("Contract violated [" ++ ", ".intercalate violations ++ "]")
          result)
      else pure result
  | _, _ => pure (.result body.taskId body.output provenance none)

/-- What a failed task raises, by the kind of its error field. -/
def taskFailure (body : LdpMessageBody) : Failure :=
  match body.error with
  | some (.error e) => .runtimeError ("Task failed [" ++ e.code ++ "]: " ++ e.message)
  | some (.text text) => .runtimeError ("Task failed: " ++ text)
  | none => .runtimeError "Task failed: unknown error"

def concludeTask (contract : Option DelegationContract) (taskId : String)
    (body : LdpMessageBody) : TaskProgram TaskReport :=
  if body.type = "TASK_RESULT" then concludeResult fromIsoFormat contract body
  else if body.type = "TASK_FAILED" then .throw (taskFailure body)
  else pure (.pending taskId body.type body.message)

def taskSubmit (taskId skill : String) (input : Value) (contract : Option DelegationContract) :
    LdpMessageBody :=
  { type := "TASK_SUBMIT", taskId := some taskId, skill := some skill, input, contract }

/-- `LdpEnvelope.create` in a session's payload mode. -/
def createSubmit (delegateId : String) (session : LdpSession) (body : LdpMessageBody) :
    ClientProgram LdpEnvelope := do
  let messageId ← uuid4
  let timestamp ← isoNow
  pure (LdpEnvelope.create messageId timestamp session.sessionId delegateId
    session.remoteDelegateId body session.payload.mode)

variable (hmac : Hmac) (client : LdpClient)

def getOrEstablishSession (url : String) : TaskProgram LdpSession := do
  let cached ← getSession url
  match cached with
  | some session => do
      let active ← isActive session
      if active then pure session else lifted (client.establishSession hmac url)
  | none => lifted (client.establishSession hmac url)

/-- What a caller asks for with a task; a session may be given. -/
structure TaskArguments where
  skill : String
  inputData : Value
  session : Option LdpSession := none
  contract : Option DelegationContract := none

/-- The rest of `submit_task`, once its session is known. -/
def submitIn (url : String) (task : TaskArguments) (session : LdpSession) :
    TaskProgram TaskReport := do
  let taskId ← lifted uuid4
  let submit ← lifted (createSubmit client.delegateId session
    (taskSubmit taskId task.skill task.inputData task.contract))
  let response ← lifted (client.sendMessage hmac url submit)
  touch session
  concludeTask fromIsoFormat task.contract taskId response.body

def submitTask (url : String) (task : TaskArguments) : TaskProgram TaskReport :=
  match task.session with
  | some session => submitIn fromIsoFormat hmac client url task session
  | none => do
      let session ← getOrEstablishSession hmac client url
      submitIn fromIsoFormat hmac client url task session

end

/-- The calls the client's user can make. -/
inductive Operation where
  | discover (url : String)
  | establishSession (url : String)
  | getOrEstablishSession (url : String)
  | submitTask (url : String) (task : TaskArguments)
  | registerPayloadMode (mode : PayloadMode)

/-- What a call returns. -/
inductive Returned where
  | card (identity : LdpIdentityCard)
  | session (session : LdpSession)
  | report (report : TaskReport)
  | nothing

def Operation.program (fromIsoFormat : String → Option Deadline) (hmac : Hmac)
    (client : LdpClient) : Operation → TaskProgram Returned
  | .discover url => do
      let identity ← lifted (client.discover url)
      pure (.card identity)
  | .establishSession url => do
      let session ← lifted (client.establishSession hmac url)
      pure (.session session)
  | .getOrEstablishSession url => do
      let session ← PythonTasks.getOrEstablishSession hmac client url
      pure (.session session)
  | .submitTask url task => do
      let report ← PythonTasks.submitTask fromIsoFormat hmac client url task
      pure (.report report)
  | .registerPayloadMode mode => do
      PythonTasks.registerPayloadMode mode
      pure .nothing

/-- The client's dictionary and the codec registry of its process. -/
structure ClientState where
  sessions : Sessions
  registered : List PayloadMode

/-- The two are the same but for what a use changes. -/
def Same (held session : LdpSession) : Prop :=
  held = { session with lastUsed := held.lastUsed, taskCount := held.taskCount }

/-- An entry of the dictionary after a use of `session`, which may be its object. -/
def Counted (session : LdpSession) (read : ℤ) (before after : Option LdpSession) : Prop :=
  after = before ∨ ∃ held, before = some held ∧ Same held session ∧
    after = some { held with lastUsed := read, taskCount := held.taskCount + 1 }

/-- The dictionary and the registry are the client's; what peers answer is free. -/
def TaskCall.Meaning : InterferedRuns.Meaning TaskCall TaskCall.Answer ClientState
  | .client (.setSession url session), s, _, t =>
      t = { s with sessions := s.sessions.insert url session }
  | .client .registeredModes, s, a, t => a = s.registered ∧ t = s
  | .client _, s, _, t => t = s
  | .getSession url, s, a, t => a = s.sessions.lookup url ∧ t = s
  | .touch session, s, _, t => t.registered = s.registered ∧
      ∃ read, ∀ url, Counted session read (s.sessions.lookup url) (t.sessions.lookup url)
  | .registerPayloadMode mode, s, _, t => t = { s with registered := mode :: s.registered }

/-- A peer that gives one reply to every message. -/
def answering (reply card : Value) (made : Factories) :
    (q : TaskCall) → ClientState → q.Answer × ClientState
  | .client .uuid4, s => ("9f1c1f0e-6f7e-4a0b-9a55-0d6a3b1c2d4e", s)
  | .client .isoNow, s => ("1970-01-01T00:00:00+00:00", s)
  | .client .utcNow, s => (0, s)
  | .client .registeredModes, s => (s.registered, s)
  | .client .defaults, s => (made, s)
  | .client (.postMessage _ _), s => (.ok reply, s)
  | .client (.getIdentity _), s => (.ok card, s)
  | .client (.setSession url session), s =>
      ((), { s with sessions := s.sessions.insert url session })
  | .getSession url, s => (s.sessions.lookup url, s)
  | .touch _, s => ((), s)
  | .registerPayloadMode mode, s => ((), { s with registered := mode :: s.registered })

theorem answering_meaning (reply card : Value) (made : Factories) (q : TaskCall)
    (s : ClientState) : TaskCall.Meaning q s (answering reply card made q s).1
      (answering reply card made q s).2 := by
  cases q with
  | client q => cases q <;> simp [answering, TaskCall.Meaning]
  | touch session => exact ⟨rfl, 0, fun _ => .inl rfl⟩
  | _ => simp [answering, TaskCall.Meaning]

end LdpProtocol.PythonTasks
