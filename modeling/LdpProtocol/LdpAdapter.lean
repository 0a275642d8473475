import LdpProtocol.SessionManager

/-!
# The Rust client's adapter

`invoke`, `stream`, `status` and `cancel` over the session manager. A stream is
driven by its consumer: the number of ticks it waits for is an argument, and the
stream may end earlier. How a deadline text is parsed is left open.
-/
namespace LdpProtocol.LdpAdapter
open InteractivePrograms InterferedRuns
open JsonValues PayloadModes MessageTypes EnvelopeSigning SessionManager

structure TaskRequest where
  skill : String
  input : Value
  contract : Option DelegationContract := none

/-- Handle returned after submitting a task. -/
structure TaskHandle where
  taskId : String
  remoteUrl : String

/-- Events emitted during task streaming. -/
inductive TaskEvent where
  | progress (message : String) (progress : Option ℚ)
  | completed (output : Value)
  | failed (error : LdpError)

/-- Current status of a submitted task. -/
inductive TaskStatus where
  | submitted
  | working
  | completed (output : Value)
  | failed (error : LdpError)

def exceeds {α : Type} [LT α] [DecidableLT α] (code : String) : Option α → Option α → List String
  | some max, some used => if max < used then [code] else []
  | _, _ => []

section
variable (parseRfc3339 : String → Option ℤ)

def deadlineViolations (contract : DelegationContract) : ClientProgram (List String) :=
  match contract.deadline.bind parseRfc3339 with
  | some deadline => do
      let now ← utcNow
      pure (if now > deadline then ["deadline_exceeded"] else [])
  | none => pure []

def budgetViolations (contract : DelegationContract) (provenance : Provenance) : List String :=
  match contract.policy.budget with
  | some budget =>
      exceeds "budget_tokens_exceeded" budget.maxTokens provenance.tokensUsed ++
        exceeds "budget_cost_exceeded" budget.maxCostUsd provenance.costUsd
  | none => []

/-- Validate a task result against its contract. Returns violation codes. -/
def validateContract (contract : DelegationContract) (provenance : Provenance) :
    ClientProgram (List String) := do
  let late ← deadlineViolations parseRfc3339 contract
  pure (late ++ budgetViolations contract provenance)

def buildLineageEntry (provenance : Provenance) (skill : String) : ProvenanceEntry where
  delegateId := provenance.producedBy
  modelVersion := provenance.modelVersion
  step := skill
  timestamp := provenance.timestamp
  verificationStatus := provenance.verificationStatus

/-- The lineage entry is built before the flags are synced. -/
def received (provenance : Provenance) : Provenance :=
  Provenance.normalize
    { provenance with lineage := buildLineageEntry provenance "task" :: provenance.lineage }

/-- Inserting a key replaces the member that has it. -/
def insertMember (members : List (String × Value)) (key : String) (v : Value) :
    List (String × Value) :=
  members.filter (fun m => m.1 != key) ++ [(key, v)]

def embedProvenance (config : LdpAdapterConfig) (output : Value) (provenance : Provenance) :
    Value :=
  if config.attachProvenance then
    match output with
    | .object members => .object (insertMember members "ldp_provenance" provenance.toValue)
    | other => .object [("result", other), ("ldp_provenance", provenance.toValue)]
  else output

def contractViolated (violations : List String) (output : Value) : LdpError :=
  (LdpError.policy "CONTRACT_VIOLATED"
    ("Contract violations: " ++ ", ".intercalate violations)).withPartialOutput output

/-- A violated contract fails the task only under the fail-closed policy. -/
def failsClosed (contract : DelegationContract) (violations : List String) : Bool :=
  !violations.isEmpty && decide (contract.policy.failurePolicy = .failClosed)

def applyContractValidation (config : LdpAdapterConfig) (contract : DelegationContract)
    (output : Value) (provenance : Provenance) : ClientProgram TaskStatus := do
  let violations ← validateContract parseRfc3339 contract provenance
  let output := embedProvenance config output
    { provenance with
      contractId := some contract.contractId
      contractSatisfied := some violations.isEmpty
      contractViolations := violations }
  pure (if failsClosed contract violations then .failed (contractViolated violations output)
    else .completed output)

variable (hmac : Hmac) (config : LdpAdapterConfig)

/-- A contract is remembered under the id of the task it came with. -/
def storeContract (taskId : String) : Option DelegationContract → ClientProgram Unit
  | some contract => insertContract taskId contract
  | none => pure ()

def invoke (url : String) (task : TaskRequest) : ClientProgram TaskHandle := do
  let session ← getOrEstablish hmac config url
  let taskId ← newV4
  let submit ← newEnvelope session.sessionId config.delegateId session.remoteDelegateId
    (.taskSubmit taskId task.skill task.input task.contract) session.payload.mode
  let _ ← sendSigned hmac config url submit
  storeContract taskId task.contract
  touch url
  pure ⟨taskId, url⟩

/-- A status query, outside any session. -/
def statusQuery (url taskId : String) : ClientProgram LdpEnvelope :=
  newEnvelope "" config.delegateId url (.taskUpdate taskId none (some "status_query")) .text

/-- The event that ends a stream on a task result. -/
def completedEvent (contract : Option DelegationContract) (output : Value)
    (provenance : Provenance) : ClientProgram TaskEvent :=
  let embedded := embedProvenance config output provenance
  match contract with
  | some contract => do
      let violations ← validateContract parseRfc3339 contract provenance
      pure (if failsClosed contract violations then .failed (contractViolated violations embedded)
        else .completed embedded)
  | none => pure (.completed embedded)

/-- Polls once per tick until the task has ended or the consumer stops. -/
def pollUpdates (url taskId : String) (contract : Option DelegationContract) :
    ℕ → ClientProgram (List TaskEvent)
  | 0 => pure []
  | ticks + 1 => do
      let query ← statusQuery config url taskId
      let response ← sendMessage url (signIfConfigured hmac config.signingSecret query)
      match response with
      | .ok envelope =>
          match envelope.body with
          | .taskUpdate _ progress message => do
              let events ← pollUpdates url taskId contract ticks
              pure (.progress (message.getD "") progress :: events)
          | .taskResult _ output provenance => do
              let event ← completedEvent parseRfc3339 config contract output
                (received provenance)
              pure [event]
          | .taskFailed _ error => pure [.failed error]
          | _ => pollUpdates url taskId contract ticks
      | .error e => pure [.failed (LdpError.transport "STREAM_ERROR" e)]

def stream (url : String) (task : TaskRequest) (ticks : ℕ) : ClientProgram (List TaskEvent) := do
  let handle ← invoke hmac config url task
  pollUpdates parseRfc3339 hmac config url handle.taskId task.contract ticks

def status (url taskId : String) : ClientProgram TaskStatus := do
  let query ← statusQuery config url taskId
  let response ← sendSigned hmac config url query
  match response.body with
  | .taskUpdate _ _ message =>
      pure (if message.getD "" = "submitted" then .submitted else .working)
  | .taskResult _ output provenance => do
      let contract ← getContract taskId
      match contract with
      | some contract =>
          applyContractValidation parseRfc3339 config contract output (received provenance)
      | none => pure (.completed (embedProvenance config output (received provenance)))
  | .taskFailed _ error => pure (.failed error)
  | _ => pure .working

def cancel (url taskId : String) : ClientProgram Unit := do
  let cancelMsg ← newEnvelope "" config.delegateId url (.taskCancel taskId) .text
  let _ ← sendSigned hmac config url cancelMsg
  pure ()

end

/-- The calls the client's user can make. -/
inductive Operation where
  | invoke (url : String) (task : TaskRequest)
  | stream (url : String) (task : TaskRequest) (ticks : ℕ)
  | status (url taskId : String)
  | cancel (url taskId : String)
  | getOrEstablish (url : String)
  | close (url : String)
  | closeAll

def Operation.program (parseRfc3339 : String → Option ℤ) (hmac : Hmac)
    (config : LdpAdapterConfig) : Operation → ClientProgram Unit
  | .invoke url task => do
      let _ ← LdpAdapter.invoke hmac config url task
      pure ()
  | .stream url task ticks => do
      let _ ← LdpAdapter.stream parseRfc3339 hmac config url task ticks
      pure ()
  | .status url taskId => do
      let _ ← LdpAdapter.status parseRfc3339 hmac config url taskId
      pure ()
  | .cancel url taskId => LdpAdapter.cancel hmac config url taskId
  | .getOrEstablish url => do
      let _ ← SessionManager.getOrEstablish hmac config url
      pure ()
  | .close url => SessionManager.close config url
  | .closeAll => SessionManager.closeAll config

end LdpProtocol.LdpAdapter
