import LdpProtocol.PythonTasks

/-!
# What the Python client asks

For each of the client's programs, the questions it can come to: if a predicate
holds of these, it holds of whatever the program asks.
-/
namespace LdpProtocol.PythonQuestions
open InteractivePrograms InterferedRuns TranslatedPrograms
open InteractivePrograms.Program (uses_pure uses_throw)
open JsonValues PayloadModes EnvelopeSigning PythonMessages PythonSigning PythonIdentity
open PythonClient PythonTasks

/-- Ids, clock readings, the registry and the defaults of a validation are in `P`. -/
structure Ordinary (P : ClientCall → Prop) : Prop where
  uuid4 : P .uuid4
  isoNow : P .isoNow
  utcNow : P .utcNow
  registeredModes : P .registeredModes
  defaults : P .defaults

section Client
variable {client : LdpClient} {hmac : Hmac} {url : String} {P : ClientCall → Prop}

abbrev Asks {α : Type} (P : ClientCall → Prop) (p : ClientProgram α) : Prop :=
  p.Uses (fun _ _ => True) P

theorem create_asks (h : Ordinary P) (sessionId fromId toId : String) (body : LdpMessageBody) :
    Asks P (create sessionId fromId toId body) :=
  ⟨h.uuid4, fun _ _ => ⟨h.isoNow, fun _ _ => uses_pure _⟩⟩

theorem raiseForStatus_asks (answer : Except String Value) : Asks P (raiseForStatus answer) := by
  cases answer with
  | ok document => exact uses_pure _
  | error text => exact uses_throw _

theorem validated_asks {α : Type} (read : Option α) : Asks P (validated read) := by
  cases read with
  | some a => exact uses_pure _
  | none => exact uses_throw _

theorem sendMessage_asks (h : Ordinary P) (hpost : ∀ document, P (.postMessage url document))
    (e : LdpEnvelope) : Asks P (client.sendMessage hmac url e) := by
  refine ⟨hpost _, ?_⟩
  intro answer _
  apply (raiseForStatus_asks answer).bind
  intro document
  exact ⟨h.defaults, fun made _ => validated_asks _⟩

theorem discover_asks (hget : P (.getIdentity url)) : Asks P (client.discover url) := by
  refine ⟨hget, ?_⟩
  intro answer _
  apply (raiseForStatus_asks answer).bind
  intro document
  apply (validated_asks _).bind
  intro identity
  unfold LdpClient.trusted
  split
  · exact uses_throw _
  · exact uses_pure _

theorem openSession_asks (h : Ordinary P) (hget : P (.getIdentity url))
    (hset : ∀ session, P (.setSession url session)) (sessionId : String)
    (advertised : List PayloadMode) (body : LdpMessageBody) :
    Asks P (client.openSession url sessionId advertised body) := by
  unfold LdpClient.openSession
  dsimp only
  split
  · exact uses_throw _
  · apply (discover_asks hget).bind
    intro identity
    exact ⟨h.utcNow, fun _ _ => ⟨h.utcNow, fun _ _ => ⟨hset _, fun _ _ => uses_pure _⟩⟩⟩

theorem establishSession_asks (h : Ordinary P) (hpost : ∀ document, P (.postMessage url document))
    (hget : P (.getIdentity url)) (hset : ∀ session, P (.setSession url session)) :
    Asks P (client.establishSession hmac url) := by
  refine ⟨h.registeredModes, ?_⟩
  intro registered _
  apply (create_asks h _ _ _ _).bind
  intro hello
  apply (sendMessage_asks h hpost hello).bind
  intro greeting
  refine ⟨h.uuid4, ?_⟩
  intro sessionId _
  apply (create_asks h _ _ _ _).bind
  intro propose
  apply (sendMessage_asks h hpost propose).bind
  intro answer
  split
  · exact uses_throw _
  · exact openSession_asks h hget hset _ _ _

end Client

section Tasks
variable {fromIsoFormat : String → Option Deadline} {hmac : Hmac} {client : LdpClient}
  {url : String} {P : TaskCall → Prop}

abbrev TaskAsks {α : Type} (P : TaskCall → Prop) (p : TaskProgram α) : Prop :=
  p.Uses (fun _ _ => True) P

theorem lifted_asks {α : Type} {p : ClientProgram α} (hp : Asks (fun q => P (.client q)) p) :
    TaskAsks P (lifted p) :=
  uses_translate (f := TaskCall.client) (fun _ hq => hq) hp

section Clock
variable (hclock : P (.client .utcNow))
include hclock

theorem now_asks : TaskAsks P now := ⟨hclock, fun _ _ => uses_pure _⟩

theorem isActive_asks (session : LdpSession) : TaskAsks P (isActive session) := by
  unfold isActive
  split
  · exact (now_asks hclock).bind fun _ => uses_pure _
  · exact uses_pure _

theorem deadlineViolations_asks (contract : DelegationContract) :
    TaskAsks P (deadlineViolations fromIsoFormat contract) := by
  unfold deadlineViolations
  split
  · exact (now_asks hclock).bind fun _ => uses_pure _
  · exact (now_asks hclock).bind fun _ => uses_throw _
  · exact uses_pure _

/-- Once the response is there, nothing but the clock is asked. -/
theorem concludeTask_asks (contract : Option DelegationContract) (taskId : String)
    (body : LdpMessageBody) : TaskAsks P (concludeTask fromIsoFormat contract taskId body) := by
  unfold concludeTask
  split
  · unfold concludeResult validateContract
    dsimp only
    split
    · apply ((deadlineViolations_asks hclock _).bind fun _ => uses_pure _).bind
      intro violations
      split
      · exact uses_throw _
      · exact uses_pure _
    · exact uses_pure _
  · split
    · exact uses_throw _
    · exact uses_pure _

end Clock

theorem getOrEstablish_asks (hclock : P (.client .utcNow)) (hcached : P (.getSession url))
    (hopen : Asks (fun q => P (.client q)) (client.establishSession hmac url)) :
    TaskAsks P (getOrEstablishSession hmac client url) := by
  refine ⟨hcached, ?_⟩
  intro cached _
  cases cached with
  | none => exact lifted_asks hopen
  | some session =>
      apply (isActive_asks hclock session).bind
      intro active
      split
      · exact uses_pure _
      · exact lifted_asks hopen

theorem submitIn_asks (h : Ordinary fun q => P (.client q))
    (hpost : ∀ document, P (.client (.postMessage url document)))
    (htouch : ∀ session, P (.touch session)) (task : TaskArguments) (session : LdpSession) :
    TaskAsks P (submitIn fromIsoFormat hmac client url task session) := by
  refine ⟨h.uuid4, ?_⟩
  intro taskId _
  refine ⟨h.uuid4, fun messageId _ => ⟨h.isoNow, fun timestamp _ => ?_⟩⟩
  apply (lifted_asks (sendMessage_asks h hpost _)).bind
  intro response
  exact ⟨htouch session, fun _ _ => concludeTask_asks h.utcNow _ _ _⟩

end Tasks
end LdpProtocol.PythonQuestions
