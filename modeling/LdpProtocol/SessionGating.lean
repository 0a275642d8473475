import LdpProtocol.DelegateRuns
import LdpProtocol.ServerRuns

/-!
# Sessions do not gate tasks

`SessionGated` is the law that a task runs only inside a session that was opened
by the same peer from a trusted domain and is still open. Neither responder
keeps it, since neither looks for a session before it runs a task. What sessions
do decide is the mode of a result, and a session is held only as long as its
acceptance stands.
-/
namespace LdpProtocol.SessionGating
open InteractivePrograms InterferedRuns
open JsonValues PayloadModes DelegateIdentity MessageTypes EnvelopeSigning
open ServerHandlers ServerRuns PythonDelegate

/-- What a responder did with one message, as far as sessions go. -/
inductive Observation where
  | opened (peer sessionId domain : String)
  | closed (sessionId : String)
  | executed (peer sessionId : String)
  | other
  deriving DecidableEq

/-- A task of a peer runs only in a session that this peer opened from a trusted
domain and that has not been closed since. The lifetime of the session is not
even asked about. -/
def SessionGated (trusts : String → Bool) (observations : List Observation) : Prop :=
  ∀ before after peer sessionId,
    observations = before ++ .executed peer sessionId :: after →
    ∃ earlier domain later, before = earlier ++ .opened peer sessionId domain :: later ∧
      trusts domain = true ∧ .closed sessionId ∉ later

/-- A run in which nothing was opened and a task was executed breaks the law. -/
theorem not_sessionGated {trusts : String → Bool} (before after : List Observation)
    {peer sessionId : String} (h : ∀ domain, .opened peer sessionId domain ∉ before) :
    ¬ SessionGated trusts (before ++ .executed peer sessionId :: after) := by
  intro hgated
  obtain ⟨earlier, domain, later, heq, _⟩ := hgated before after peer sessionId rfl
  apply h domain
  rw [heq]
  simp

def observe (x : Exchange) : Observation :=
  if invocations x.trace ≠ [] then .executed x.envelope.from_ x.envelope.sessionId
  else match x.envelope.body, x.outcome with
    | .sessionPropose config, .ok response =>
        match response.body with
        | .sessionAccept sessionId _ =>
            .opened x.envelope.from_ sessionId (LdpServer.remoteDomain config)
        | _ => .other
    | .sessionClose _, .ok _ => .closed x.envelope.sessionId
    | _, _ => .other

/-- One message handled by a delegate, which has no state to carry on. -/
structure DelegateExchange where
  envelope : PythonMessages.LdpEnvelope
  trace : DelegateGate.Trace
  outcome : Except PythonSigning.Raised PythonMessages.LdpEnvelope

def DelegateServes (display : Value → String) (hmac : Hmac) (d : LdpDelegate)
    (log : List DelegateExchange) : Prop :=
  ∀ x ∈ log, DelegateGate.DelegateRun (d.handleMessage display hmac x.envelope) x.trace x.outcome

def observeDelegate (x : DelegateExchange) : Observation :=
  if DelegateRuns.taskCalls x.trace ≠ [] then
    .executed x.envelope.from_ x.envelope.sessionId
  else match x.envelope.body.type, x.outcome with
    | "SESSION_PROPOSE", .ok response =>
        match response.body.type, response.body.sessionId, LdpDelegate.remoteDomain x.envelope with
        | "SESSION_ACCEPT", some sessionId, .string domain =>
            .opened x.envelope.from_ sessionId domain
        | _, _, _ => .other
    | "SESSION_CLOSE", .ok _ => .closed x.envelope.sessionId
    | _, _ => .other

/-- A proposal from a domain nobody trusts, and a task of the same peer. -/
def strangerProposal : LdpEnvelope :=
  LdpEnvelope.new "m1" "t0" "s1" "ldp:a" "ldp:b"
    (.sessionPropose (.object [("trust_domain", .string "elsewhere")])) .text

def strangerTask : LdpEnvelope :=
  LdpEnvelope.new "m2" "t1" "s1" "ldp:a" "ldp:b" (.taskSubmit "t1" "echo" .null none) .text

def echoExchange (hmac : Hmac) (srv : LdpServer) (s : ServerState) (e : LdpEnvelope) : Exchange :=
  let run := Program.exec ServerCall.echo (srv.handleMessage hmac e) s
  ⟨e, run.1, s, run.2.1, run.2.2⟩

theorem serves_echoExchange {hmac : Hmac} {srv : LdpServer} {log : List Exchange}
    {s : ServerState} (h : Serves hmac srv log s) (e : LdpEnvelope) :
    Serves hmac srv (log ++ [echoExchange hmac srv s e]) (echoExchange hmac srv s e).after :=
  h.handle (exec_run ServerCall.echo ServerCall.echo_meaning _ _)

def obligingExchange (hmac : Hmac) (d : LdpDelegate) (e : PythonMessages.LdpEnvelope) :
    DelegateExchange :=
  let run := Program.exec DelegateGate.obliging (d.handleMessage (fun _ => "") hmac e) ()
  ⟨e, run.1, run.2.2⟩

theorem delegateServes_obliging (hmac : Hmac) (d : LdpDelegate)
    (es : List PythonMessages.LdpEnvelope) :
    DelegateServes (fun _ => "") hmac d (es.map (obligingExchange hmac d)) := by
  intro x hx
  obtain ⟨e, _, rfl⟩ := List.mem_map.mp hx
  exact exec_run DelegateGate.obliging (fun _ _ => trivial) _ ()

def strangerProposalPython : PythonMessages.LdpEnvelope :=
  .create "m1" "t0" "s1" "ldp:a" "ldp:b"
    (.sessionPropose [("trust_domain", .string "elsewhere")]) .text

def strangerTaskPython : PythonMessages.LdpEnvelope :=
  .create "m2" "t1" "s1" "ldp:a" "ldp:b"
    { type := "TASK_SUBMIT", taskId := some "t1", skill := some "echo" } .text

/-- Both responders run a task of a peer whose only proposal they rejected. -/
theorem strangers_are_served :
    (∃ log s, Serves submissionMac (LdpServer.echoServer "ldp:b" "B") log s ∧
      log.map Exchange.envelope = [strangerProposal, strangerTask] ∧
      log.map observe = [.other, .executed "ldp:a" "s1"] ∧
      ¬ SessionGated (LdpServer.echoServer "ldp:b" "B").identity.trustDomain.trusts
        (log.map observe)) ∧
    (∃ log, DelegateServes (fun _ => "") submissionMac
        { DelegateGate.signingDelegate with signingSecret := none } log ∧
      log.map DelegateExchange.envelope = [strangerProposalPython, strangerTaskPython] ∧
      log.map observeDelegate = [.other, .executed "ldp:a" "s1"] ∧
      ¬ SessionGated DelegateGate.signingDelegate.identity.trustDomain.trusts
        (log.map observeDelegate)) := by
  have hstart : Serves submissionMac (LdpServer.echoServer "ldp:b" "B") [] .empty := .start
  have hserves := serves_echoExchange (serves_echoExchange hstart strangerProposal) strangerTask
  have hdelegate := delegateServes_obliging submissionMac
    { DelegateGate.signingDelegate with signingSecret := none }
    [strangerProposalPython, strangerTaskPython]
  constructor
  · refine ⟨_, _, hserves, rfl, rfl, ?_⟩
    exact not_sessionGated [.other] [] (by simp)
  · refine ⟨_, hdelegate, rfl, rfl, ?_⟩
    exact not_sessionGated [.other] [] (by simp)

/-- What holds in every run. The server runs a handler for exactly the
submissions that pass the signature check; a session it holds was opened by an
accepted proposal from a trusted domain that nothing has closed or replaced
since, and decides the mode of the result. The delegate runs a task for exactly
the submissions that pass its check, and accepts only trusted domains. -/
theorem tasks_and_sessions :
    (∀ (hmac : Hmac) (srv : LdpServer) (log : List Exchange) (s : ServerState),
      Serves hmac srv log s → ∀ before x after, log = before ++ x :: after →
        invocations x.trace = dueInvocations hmac srv x.envelope ∧
        (∀ id session, x.before.sessions.lookup id = some session →
          session.sessionId = id ∧ Sourced srv before session) ∧
        (∀ taskId skill input contract, srv.signatureError hmac x.envelope = none →
          x.envelope.body = .taskSubmit taskId skill input contract →
          ∃ response output provenance, x.outcome = .ok response ∧
            response.body = .taskResult taskId output provenance ∧
            response.payloadMode =
              LdpServer.sessionMode (x.before.sessions.lookup x.envelope.sessionId))) ∧
    (∀ (display : Value → String) (hmac : Hmac) (d : LdpDelegate) (log : List DelegateExchange),
      DelegateServes display hmac d log → ∀ x ∈ log,
        DelegateRuns.taskCalls x.trace = DelegateRuns.dueTasks hmac d x.envelope ∧
        ∀ response, x.outcome = .ok response → response.body.type = "SESSION_ACCEPT" →
          x.envelope.body.type = "SESSION_PROPOSE" ∧
            d.trustsValue (LdpDelegate.remoteDomain x.envelope) = true) := by
  constructor
  · intro hmac srv log s hserves before x after hlog
    obtain ⟨hbefore, hrun⟩ := hserves.split hlog
    refine ⟨handleMessage_invocations hrun, ?_, ?_⟩
    · intro id session hl
      exact hbefore.sourced hl
    · intro taskId skill input contract hsig hb
      exact handleMessage_submit hrun hsig hb
  · intro display hmac d log hserves x hx
    have hrun := hserves x hx
    refine ⟨DelegateRuns.handleMessage_taskCalls hrun, ?_⟩
    intro response hr ha
    rw [hr] at hrun
    exact DelegateRuns.handleMessage_accept hrun ha

theorem tasks_and_sessions_stranger :
    invocations (echoExchange submissionMac (LdpServer.echoServer "ldp:b" "B") .empty
        strangerTask).trace = [("echo", .null)] ∧
      DelegateRuns.taskCalls (obligingExchange submissionMac DelegateGate.signingDelegate
        strangerTaskPython).trace = [("echo", .null)] := by
  have hstart : Serves submissionMac (LdpServer.echoServer "ldp:b" "B") [] .empty := .start
  have hserves := serves_echoExchange hstart strangerTask
  have hdelegate := delegateServes_obliging submissionMac DelegateGate.signingDelegate
    [strangerTaskPython]
  constructor
  · exact (tasks_and_sessions.1 _ _ _ _ hserves [] _ [] rfl).1
  · exact (tasks_and_sessions.2 _ _ _ _ hdelegate _ List.mem_cons_self).1

end LdpProtocol.SessionGating
