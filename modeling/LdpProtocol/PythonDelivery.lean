import LdpProtocol.CardExchange
import LdpProtocol.DelegateAnswers
import LdpProtocol.LinkedDelegate
import LdpProtocol.PythonSubmissions

/-!
# Tasks between two Python parties

A client submits a task to a delegate with the same secret, or neither has one,
and the two trust each other. Between them nothing is lost; what else the client
does at the same time, which codecs come and go and what other peers answer is
free. The submission goes out once, the task handler runs on it, and the caller
gets what it returned, or the text of what it raised.
-/
namespace LdpProtocol.PythonDelivery
open InteractivePrograms InterferedRuns ConcurrentCalls
open InteractivePrograms.Program (call_bind pure_eq ask_bind pure_bind_eq)
open JsonValues PayloadModes PythonMessages PythonSigning PythonIdentity
open EnvelopeSigning (Hmac)
open PythonDelegate (LdpDelegate DelegateCall DelegateProgram)
open DelegateGate (DelegateRun create_run)
open PythonClient PythonTasks PythonSubmissions

/-- Which outcomes the task handler of the subclass may have. -/
abbrev TaskHandler := String → Value → String → Except String (Value × ℚ) → Prop

/-- The task handler has such an outcome, and raises nothing that is not caught. -/
def caught (handles : TaskHandler) : DelegateAnswers.TaskHandler :=
  fun skill inputData taskId a => ∃ outcome, a = .ok outcome ∧
    handles skill inputData taskId outcome

theorem caught_caught (handles : TaskHandler) (e : LdpEnvelope) :
    DelegateAnswers.Caught (caught handles) e := by
  rintro taskId _ text ⟨outcome, htext, _⟩
  cases htext

/-- The task handler does as it may, and the hooks do not raise. -/
abbrev Behaves (handles : TaskHandler) (ev : Event DelegateCall DelegateCall.Answer) : Prop :=
  DelegateAnswers.Behaves (caught handles) ev.1 ev.2

section Delegate
variable {display : Value → String} {hmac : Hmac} {d : LdpDelegate} {handles : TaskHandler}
  {e response : LdpEnvelope}

/-- A response of the delegate to a message that passed its check. -/
def Responds (display : Value → String) (d : LdpDelegate) (handles : TaskHandler)
    (e response : LdpEnvelope) : Prop :=
  ∃ tr, DelegateRun (d.dispatch display e) tr (.ok response) ∧ ∀ ev ∈ tr, Behaves handles ev

/-- How the delegate answers a document. -/
inductive Handled (display : Value → String) (hmac : Hmac) (d : LdpDelegate)
    (handles : TaskHandler) (document : Value) : Except String Value → Prop
  | handled {made : Factories} {envelope : LdpEnvelope} {tr : DelegateGate.Trace}
      {r : Except Raised LdpEnvelope} : LdpEnvelope.modelValidate made document = some envelope →
      DelegateRun (d.handleMessage display hmac envelope) tr r → (∀ ev ∈ tr, Behaves handles ev) →
      Handled display hmac d handles document (LinkedDelegate.answerOf r)
  | invalid {made : Factories} : LdpEnvelope.modelValidate made document = none →
      Handled display hmac d handles document (.error LinkedDelegate.internalError)

/-- What one party signed passes the check of the other with the same secret. -/
theorem signaturePasses_signed (e : LdpEnvelope) :
    d.signaturePasses hmac (signIfConfigured hmac d.signingSecret e) = .ok true := by
  unfold LdpDelegate.signaturePasses
  cases hsecret : d.signingSecret with
  | none => rfl
  | some secret =>
      by_cases hempty : secret = ""
      · cases hsignature : (signIfConfigured hmac (some secret) e).signature with
        | none => rfl
        | some signature => simp [hempty]
      · have hsigned : signIfConfigured hmac (some secret) e =
            applySignature hmac e secret := if_neg hempty
        have hverified := (SigningAgreement.pythonVerify_iff hmac
          (applySignature hmac e secret) secret (signEnvelope hmac e secret)).mpr rfl
        rw [hsigned]
        dsimp only [applySignature]
        split
        · rfl
        · exact hverified

theorem normalized_signed {secret : Option String} (he : e.normalized = e) :
    (signIfConfigured hmac secret e).normalized =
      signIfConfigured hmac secret e := by
  have hfields := (LdpEnvelope.normalized_eq_self e).mp he
  rw [LdpEnvelope.normalized_eq_self]
  unfold signIfConfigured
  cases secret with
  | none => exact hfields
  | some secret =>
      dsimp only
      split
      · exact hfields
      · exact hfields

/-- A message that is signed with the delegate's secret gets a response, and the
response is signed with it too. -/
theorem responds_of_handled (he : e.normalized = e) {answer : Except String Value}
    (h : Handled display hmac d handles
      (signIfConfigured hmac d.signingSecret e).modelDump answer) :
    ∃ response, Responds display d handles
        (signIfConfigured hmac d.signingSecret e) response ∧
      answer = .ok (signIfConfigured hmac d.signingSecret response).modelDump := by
  have hread (made : Factories) := LdpEnvelope.modelValidate_modelDump made
    (signIfConfigured hmac d.signingSecret e)
  simp only [normalized_signed he] at hread
  cases h with
  | invalid hinvalid =>
      rw [hread] at hinvalid
      cases hinvalid
  | @handled made envelope tr r hvalid hrun hbehaves =>
      rw [hread] at hvalid
      cases hvalid
      rcases LinkedDelegate.handleMessage_run hrun with ⟨_, raw, hraw, rfl⟩ | ⟨hno, _⟩
      · have hanswers := DelegateAnswers.dispatch_answers d display
          (signIfConfigured hmac d.signingSecret e) fun _ => caught_caught handles _
        obtain ⟨response, rfl⟩ := hraw.ok_of_totalOn hanswers hbehaves
        exact ⟨response, ⟨tr, hraw, hbehaves⟩, rfl⟩
      · exact (hno (signaturePasses_signed e)).elim

/-- The response to a proposal of a trusted party, in a mode that it offered or in
text. -/
theorem propose_responds (htype : e.body.type = "SESSION_PROPOSE")
    (ht : d.trustsValue (LdpDelegate.remoteDomain e) = true)
    (h : Responds display d handles e response) : ∃ sessionId mode,
      response.body = .sessionAccept sessionId mode ∧
      (mode = .text ∨ mode ∈ LdpDelegate.initiatorModes e) := by
  obtain ⟨tr, hrun, hbehaves⟩ := h
  rw [LinkedDelegate.dispatch_propose htype] at hrun
  unfold LdpDelegate.handleSessionPropose LdpDelegate.create PythonDelegate.onSessionStart
    PythonDelegate.uuid4 PythonDelegate.registeredModes PythonDelegate.isoNow at hrun
  rw [if_pos ht] at hrun
  simp only [call_bind, pure_eq, ask_bind, pure_bind_eq, quiet_ask] at hrun
  obtain ⟨sessionId, _, _, _, ⟨registered, _, _, _, ⟨messageId, _, _, _, ⟨timestamp, _, _, _,
    ⟨answer, _, _, _, hrest, _⟩, _⟩, _⟩, _⟩, _⟩ := hrun
  have hmode := agreedMode_cases (fun _ => true) (LdpDelegate.initiatorModes e)
    (d.identity.advertisedPayloadModes registered)
  rw [← PythonIdentity.negotiatePayloadMode_mode] at hmode
  cases answer with
  | error text =>
      simp only [PythonDelegate.raiseHook, Program.throw_bind, quiet_throw] at hrest
      cases hrest.2.2
  | ok _ =>
      simp only [PythonDelegate.raiseHook, pure_bind_eq, quiet_pure] at hrest
      cases hrest.2.2
      exact ⟨sessionId, _, rfl, hmode.imp_right fun h => h.2.1⟩

/-- The body of the response to a submission, by what the handler did. -/
def outcomeBody (d : LdpDelegate) (e : LdpEnvelope) (taskId timestamp : String) :
    Except String (Value × ℚ) → LdpMessageBody
  | .ok (output, confidence) =>
      .taskResult taskId output (d.resultProvenance e confidence timestamp)
  | .error text => .taskFailed taskId (LdpError.runtime "TASK_EXECUTION_ERROR" text)

theorem submit_responds (htype : e.body.type = "TASK_SUBMIT")
    (h : Responds display d handles e response) : ∃ taskId timestamp outcome,
      handles (LdpDelegate.orEmpty e.body.skill) e.body.input taskId outcome ∧
      response.body = outcomeBody d e taskId timestamp outcome := by
  obtain ⟨tr, hrun, hbehaves⟩ := h
  have hdispatch : d.dispatch display e = d.handleTaskSubmit e := by
    unfold LdpDelegate.dispatch
    rw [htype]
    rfl
  rw [hdispatch] at hrun
  unfold LdpDelegate.handleTaskSubmit at hrun
  rcases hrun.of_bind with ⟨taskId, _, tr₁, tr₂, _, h₂, rfl⟩ | ⟨error, h₁, hr⟩
  · rcases DelegateGate.handleTask_run h₂ with ⟨_, _, hr⟩ | ⟨outcome, tr₃, rfl, h₃⟩
    · cases hr
    obtain ⟨made, hmade, houtcome⟩ := hbehaves
      ⟨.handleTask (LdpDelegate.orEmpty e.body.skill) e.body.input taskId, .ok outcome⟩ (by simp)
    cases hmade
    cases outcome with
    | ok result =>
        obtain ⟨timestamp, _, _, _, h₄, _⟩ := quiet_ask.mp h₃
        obtain ⟨_, _, _, hresponse⟩ := create_run d e h₄
        cases hresponse
        exact ⟨taskId, timestamp, .ok result, houtcome, rfl⟩
    | error text =>
        obtain ⟨_, _, timestamp, hresponse⟩ := create_run d e h₃
        cases hresponse
        exact ⟨taskId, timestamp, .error text, houtcome, rfl⟩
  · cases hr

/-- The two parties trust each other, and the client can read the delegate's domain. -/
structure Trusting (client : LdpClient) (d : LdpDelegate) : Prop where
  secret : client.signingSecret = d.signingSecret
  domains : client.trustDomain.mutuallyTrusts d.identity.trustDomain = true
  named : isBlank d.identity.trustDomain.name = false

theorem Trusting.trusts {client : LdpClient} (h : Trusting client d) :
    client.trustDomain.trusts d.identity.trustDomain.name = true ∧
      d.identity.trustDomain.trusts client.trustDomain.name = true := by
  simpa [DelegateIdentity.TrustDomain.mutuallyTrusts] using h.domains

end Delegate

/-- The delegate as a peer. -/
def delegatePeer (display : Value → String) (hmac : Hmac) (d : LdpDelegate)
    (handles : TaskHandler) : Peer where
  answers := Handled display hmac d handles
  identifies answer := ∃ registered, answer = .ok (d.advertisedIdentity registered).modelDump

section Peer
variable {display : Value → String} {hmac : Hmac} {d : LdpDelegate} {handles : TaskHandler}
  {client : LdpClient}

/-- The client reads what the delegate responds. -/
theorem replies_of_responds (hsecret : client.signingSecret = d.signingSecret) {e : LdpEnvelope}
    (he : e.normalized = e) {wanted : LdpEnvelope → Prop}
    (h : ∀ response, Responds display d handles (signIfConfigured hmac d.signingSecret e) response →
      wanted (signIfConfigured hmac d.signingSecret response).normalized) :
    (delegatePeer display hmac d handles).Replies hmac client e wanted := by
  unfold Peer.Replies
  rw [hsecret]
  intro answer hanswer
  obtain ⟨response, hresponds, rfl⟩ := responds_of_handled he hanswer
  exact ⟨_, _, rfl, fun made => LdpEnvelope.modelValidate_modelDump made _, h response hresponds⟩

theorem normalized_body (response : LdpEnvelope) :
    (signIfConfigured hmac d.signingSecret response).normalized.body =
      response.body.normalized := by
  show (signIfConfigured hmac d.signingSecret response).body.normalized = _
  rw [signIfConfigured_body]

/-- The delegate finds the offered modes in the proposal. -/
theorem initiatorModes_proposed {advertised : List PayloadMode} {e : LdpEnvelope}
    (hbody : e.body = .sessionPropose (client.proposeConfig advertised)) :
    LdpDelegate.initiatorModes e = advertised := by
  have hconfig : LdpDelegate.configGet e "preferred_payload_modes" =
      some (.array (advertised.map PayloadMode.toValue)) := by
    unfold LdpDelegate.configGet
    rw [hbody]
    rfl
  unfold LdpDelegate.initiatorModes
  rw [hconfig]
  simp [List.filterMap_map]

theorem remoteDomain_proposed {advertised : List PayloadMode} {e : LdpEnvelope}
    (hbody : e.body = .sessionPropose (client.proposeConfig advertised)) :
    LdpDelegate.remoteDomain e = .string client.trustDomain.name := by
  unfold LdpDelegate.remoteDomain LdpDelegate.configGet
  rw [hbody]
  rfl

/-- A proposal is accepted in a mode that was offered, or in text. -/
theorem proposal_accepted (htrust : Trusting client d) {advertised : List PayloadMode}
    {e response : LdpEnvelope} (hbody : e.body = .sessionPropose (client.proposeConfig advertised))
    (h : Responds display d handles (signIfConfigured hmac d.signingSecret e) response) :
    ∃ sessionId mode, response.body = .sessionAccept sessionId mode ∧
      (mode = .text ∨ mode ∈ advertised) := by
  have hsigned : (signIfConfigured hmac d.signingSecret e).body =
      .sessionPropose (client.proposeConfig advertised) :=
    (signIfConfigured_body ..).trans hbody
  have htrusted : d.trustsValue (LdpDelegate.remoteDomain
      (signIfConfigured hmac d.signingSecret e)) = true := by
    rw [remoteDomain_proposed hsigned]
    exact htrust.trusts.2
  have htype : (signIfConfigured hmac d.signingSecret e).body.type = "SESSION_PROPOSE" := by
    rw [hsigned]
    rfl
  rw [← initiatorModes_proposed hsigned]
  exact propose_responds htype htrusted h

theorem delegate_welcomes (htrust : Trusting client d) :
    (delegatePeer display hmac d handles).Welcomes hmac client := by
  constructor
  · intro answer hanswer
    obtain ⟨registered, rfl⟩ := hanswer
    have hread := CardExchange.card_kept (d.advertisedIdentity registered)
    have hdomain : (d.advertisedIdentity registered).trustDomain = d.identity.trustDomain := rfl
    rw [hdomain, htrust.named] at hread
    exact ⟨_, _, rfl, hread, fun _ => htrust.trusts.1⟩
  · intro messageId timestamp to_ modes
    exact replies_of_responds htrust.secret rfl fun _ _ => trivial
  · intro messageId timestamp sessionId to_ registered
    apply replies_of_responds htrust.secret rfl
    intro response hresponds
    obtain ⟨acceptedId, mode, haccept, hmode⟩ := proposal_accepted htrust rfl hresponds
    rw [normalized_body, haccept]
    exact ⟨rfl, hmode⟩

/-- The answer to a submission: what the handler did, in a body of the delegate. -/
def Outcome (handles : TaskHandler) (d : LdpDelegate) (task : TaskArguments) (submit : LdpEnvelope)
    (body : LdpMessageBody) : Prop :=
  ∃ taskId timestamp outcome, handles task.skill task.inputData taskId outcome ∧
    body = outcomeBody d submit taskId timestamp outcome

theorem outcomeBody_normalized (d : LdpDelegate) (e : LdpEnvelope) (taskId timestamp : String)
    (outcome : Except String (Value × ℚ)) :
    (outcomeBody d e taskId timestamp outcome).normalized =
      outcomeBody d e taskId timestamp outcome := by
  cases outcome with
  | error text => rfl
  | ok result =>
      unfold outcomeBody LdpMessageBody.normalized LdpMessageBody.taskResult
        LdpDelegate.resultProvenance
      dsimp only
      rw [Option.map_some, Provenance.normalize_normalize]

theorem delegate_performs (hsecret : client.signingSecret = d.signingSecret)
    (task : TaskArguments) : (delegatePeer display hmac d handles).Performs hmac client task
      (Outcome handles d task) := by
  intro messageId timestamp sessionId to_ mode requested
  apply replies_of_responds hsecret rfl
  intro response hresponds
  let submit := signIfConfigured hmac d.signingSecret
    (Peer.submission client task messageId timestamp sessionId to_ mode requested)
  have hsubmit : submit.body = taskSubmit requested task.skill task.inputData task.contract :=
    signIfConfigured_body ..
  obtain ⟨taskId, produced, outcome, houtcome, hresponse⟩ :=
    submit_responds (e := submit) (by rw [hsubmit]; rfl) hresponds
  rw [hsubmit] at houtcome
  rw [normalized_body, hresponse, outcomeBody_normalized, hsecret]
  exact ⟨taskId, produced, outcome, houtcome, rfl⟩

end Peer

/-- What a submission comes to, by what the task handler did. -/
def outcomeReport (fromIsoFormat : String → Option Deadline) (d : LdpDelegate)
    (contract : Option DelegationContract) (submit : LdpEnvelope) (taskId timestamp : String)
    (now : ℤ) : Except String (Value × ℚ) → Except Failure TaskReport
  | .ok result =>
      reported fromIsoFormat contract (outcomeBody d submit taskId timestamp (.ok result)) now
  | .error text => .error (.runtimeError ("Task failed [TASK_EXECUTION_ERROR]: " ++ text))

/-- A submission of the task went out to the URL, the handler ran on it, and the
caller has what came of it. -/
def Delivered (fromIsoFormat : String → Option Deadline) (d : LdpDelegate)
    (handles : TaskHandler) (url : String) (task : TaskArguments)
    (submissions : List (String × Value)) (r : Except Failure TaskReport) : Prop :=
  ∃ submit requested taskId timestamp outcome now,
    submissions = [(url, submit.modelDump)] ∧
    submit.body = taskSubmit requested task.skill task.inputData task.contract ∧
    handles task.skill task.inputData taskId outcome ∧
    r = outcomeReport fromIsoFormat d task.contract submit taskId timestamp now outcome

theorem delivered_of_submitted {fromIsoFormat : String → Option Deadline} {d : LdpDelegate}
    {handles : TaskHandler} {url : String} {task : TaskArguments}
    {submissions : List (String × Value)} {r : Except Failure TaskReport}
    (h : Submitted fromIsoFormat url task (Outcome handles d task) submissions r) :
    Delivered fromIsoFormat d handles url task submissions r := by
  obtain ⟨submit, requested, body, now, hsent, hsubmit, ⟨taskId, timestamp, outcome, houtcome,
    rfl⟩, hreport⟩ := h
  refine ⟨submit, requested, taskId, timestamp, outcome, now, hsent, hsubmit, houtcome, ?_⟩
  rw [hreport]
  cases outcome with
  | ok result => rfl
  | error text => rfl

section Runs
variable {display : Value → String} {hmac : Hmac} {d : LdpDelegate} {handles : TaskHandler}
  {url : String} {client : LdpClient} {fromIsoFormat : String → Option Deadline}

/-- A task that returns its input, with full confidence. -/
def echoes : TaskHandler := fun _ inputData _ outcome => outcome = .ok (inputData, 1)

theorem obliging_behaves {α : Type} (p : DelegateProgram α) :
    ∀ ev ∈ (Program.exec DelegateGate.obliging p ()).1, Behaves echoes ev := by
  apply exec_events
  intro q _
  cases q with
  | handleTask skill inputData taskId => exact ⟨_, rfl, rfl⟩
  | onSessionStart sessionId negotiated => rfl
  | onSessionEnd sessionId reason => rfl
  | _ => trivial

theorem serve_handled (document : Value) : Handled display hmac d echoes document
    (LinkedDelegate.serve display hmac d document []).1 := by
  unfold LinkedDelegate.serve
  cases hread : LdpEnvelope.modelValidate LinkedDelegate.defaults document with
  | none => exact .invalid hread
  | some envelope =>
      exact .handled hread (exec_run DelegateGate.obliging (fun _ _ => trivial) _ _)
        (obliging_behaves _)

end Runs
end LdpProtocol.PythonDelivery
