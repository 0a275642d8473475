import LdpProtocol.AdapterVerdicts
import LdpProtocol.CrossWire
import LdpProtocol.LinkedDelegate
import LdpProtocol.SessionEstablishment

/-!
# Tasks of the Rust adapter at a Python delegate

The delegate puts the result of a task into its reply to TASK_SUBMIT, which the
adapter does not look at; the adapter asks for it with a TASK_UPDATE, which the
delegate does not know. So a task is submitted, and whatever became of it, every
query ends in a failure of another kind.
-/
namespace LdpProtocol.CrossTasks
open InteractivePrograms InterferedRuns ConcurrentCalls
open InteractivePrograms.Program (call_bind)
open JsonValues PayloadModes MessageTypes EnvelopeSigning SessionManager LdpAdapter AdapterRuns
open SessionEstablishment (newEnvelope_done sendSigned_done)
open PythonDelegate (LdpDelegate DelegateCall DelegateProgram)
open DelegateGate (DelegateRun create_run obliging)

/-- What the subclass makes of the task. -/
structure Work where
  skill : String
  input : Value
  outcome : Except String (Value × ℚ)

/-- How a delegate answers a message of the adapter: with a response that the
adapter can read, or with anything that ends in an error. -/
inductive Answered (display : Value → String) (hmac : Hmac) (d : LdpDelegate) (work : Work)
    (e : LdpEnvelope) : Except String LdpEnvelope → Prop
  | read {made : PythonMessages.Factories} {envelope response : PythonMessages.LdpEnvelope}
      {tr : DelegateGate.Trace} {back : LdpEnvelope} :
      PythonMessages.LdpEnvelope.modelValidate made e.toValue = some envelope →
      DelegateRun (d.handleMessage display hmac envelope) tr (.ok response) →
      (∀ taskId a, ⟨.handleTask work.skill work.input taskId, a⟩ ∈ tr → a = .ok work.outcome) →
      LdpEnvelope.fromValue response.modelDump = some back →
      Answered display hmac d work e (.ok back)
  | failed (text : String) : Answered display hmac d work e (.error text)

/-- The delegate is what answers at the URL. -/
def ServedBy (display : Value → String) (hmac : Hmac) (d : LdpDelegate) (work : Work)
    (url : String) (k : AdapterConfig) : Prop :=
  ∀ x ∈ k.log, ∀ e a, x.event = ⟨.sendMessage url e, a⟩ → Answered display hmac d work e a

/-- What the delegate says to a message type it does not know. -/
def unknownType : LdpError := .runtime "TASK_FAILED" "Unknown message type: TASK_UPDATE"

section Query
variable {display : Value → String} {hmac : Hmac} {d : LdpDelegate} {work : Work}

theorem fromValue_taskFailed (taskId code message : String) :
    LdpMessageBody.fromValue (PythonMessages.LdpMessageBody.taskFailed taskId
      (.runtime code message)).modelDump = some (.taskFailed taskId (.runtime code message)) := rfl

/-- A validated message has the type it was sent with. -/
theorem validated_type {made : PythonMessages.Factories} {e : LdpEnvelope}
    {envelope : PythonMessages.LdpEnvelope}
    (h : PythonMessages.LdpEnvelope.modelValidate made e.toValue = some envelope) :
    envelope.body.type = e.body.tag := by
  have hbody := (PythonMessages.LdpEnvelope.validatedFrom_of_modelValidate h).body
  have hread : PythonMessages.LdpMessageBody.modelValidate made e.body.toValue =
      some envelope.body := hbody
  have htype := (PythonMessages.LdpMessageBody.validatedFrom_of_modelValidate hread).type
  have htag : e.body.toValue.field "type" Value.asStr = some e.body.tag := rfl
  rw [htag] at htype
  exact (Option.some.inj htype).symm

/-- A query for a task is answered with a failure, whatever became of the task. -/
theorem query_failed (hd : d.signingSecret = none) {e back : LdpEnvelope} {taskId : String}
    {progress : Option ℚ} {message : Option String}
    (he : e.body = .taskUpdate taskId progress message)
    (h : Answered display hmac d work e (.ok back)) :
    ∃ id, back.body = .taskFailed id unknownType := by
  cases h with
  | @read made envelope response tr _ hvalid hrun _ hback =>
      have htype : envelope.body.type = "TASK_UPDATE" := by
        rw [validated_type hvalid, he]
        rfl
      have hdispatch := LinkedDelegate.handleMessage_unsigned hd hrun
      have hcreate : d.dispatch display envelope = d.create envelope envelope.sessionId
          (.taskFailedText (LdpDelegate.orEmpty envelope.body.taskId)
            "Unknown message type: TASK_UPDATE") .text := by
        unfold LdpDelegate.dispatch
        rw [htype]
        rfl
      rw [hcreate] at hdispatch
      obtain ⟨_, messageId, timestamp, hr⟩ := create_run d envelope hdispatch
      have hresponse := Except.ok.inj hr
      subst hresponse
      have hread := CrossWire.fromValue_modelDump (p := PythonMessages.LdpEnvelope.create messageId
        timestamp envelope.sessionId d.identity.delegateId envelope.from_
        (.taskFailedText (LdpDelegate.orEmpty envelope.body.taskId)
          "Unknown message type: TASK_UPDATE") .text) rfl (fromValue_taskFailed _ _ _)
      rw [hread] at hback
      cases hback
      exact ⟨_, rfl⟩

end Query

section Paths
variable {parseRfc3339 : String → Option ℤ} {hmac : Hmac} {config : LdpAdapterConfig}
  {url taskId : String} {tr : Trace}

/-- Every query that was answered was answered with that failure. -/
def QueriesFail (url : String) (tr : Trace) : Prop :=
  ∀ query back taskId progress message, ⟨.sendMessage url query, .ok back⟩ ∈ tr →
    query.body = .taskUpdate taskId progress message → ∃ id, back.body = .taskFailed id unknownType

theorem QueriesFail.mono {tr' : Trace} (h : QueriesFail url tr) (hsub : tr' ⊆ tr) :
    QueriesFail url tr' :=
  fun query back taskId progress message hmem => h query back taskId progress message (hsub hmem)

/-- A finished `status` that gives a status gives that failure. -/
theorem status_failed {status : TaskStatus} (hfail : QueriesFail url tr)
    (h : Along (LdpAdapter.status parseRfc3339 hmac config url taskId) tr (done (.ok status))) :
    status = .failed unknownType := by
  unfold LdpAdapter.status statusQuery at h
  rcases h.of_bind_done with ⟨_, _, hr⟩ | ⟨query, tr₁, tr₂, h₁, h₂, htr⟩
  · cases hr
  obtain ⟨_, hquery, hbody⟩ := newEnvelope_done (r := .ok query) h₁
  cases hquery
  rcases h₂.of_bind_done with ⟨_, _, hr⟩ | ⟨back, tr₃, tr₄, h₃, h₄, htr₂⟩
  · cases hr
  have hsent := sendSigned_done (r := .ok back) h₃
  obtain ⟨id, hback⟩ := hfail (signIfConfigured hmac config.signingSecret query) back taskId none
    (some "status_query") (by rw [htr, htr₂, hsent]; simp) (by rw [signIfConfigured_body, hbody])
  rw [hback] at h₄
  exact Except.ok.inj (along_pure_done.mp h₄).2

/-- The events of a stream that is queried until it ends. -/
theorem pollUpdates_failed {contract : Option DelegationContract} {ticks : ℕ}
    {events : List TaskEvent} (hfail : QueriesFail url tr)
    (h : Along (pollUpdates parseRfc3339 hmac config url taskId contract ticks) tr
      (done (.ok events))) :
    events = [] ∨ events = [.failed unknownType] ∨
      ∃ text, events = [.failed (LdpError.transport "STREAM_ERROR" text)] := by
  cases ticks with
  | zero => exact .inl (Except.ok.inj (along_pure_done.mp h).2)
  | succ ticks =>
      unfold pollUpdates statusQuery at h
      rcases h.of_bind_done with ⟨_, _, hr⟩ | ⟨query, tr₁, tr₂, h₁, h₂, htr⟩
      · cases hr
      obtain ⟨_, hquery, hbody⟩ := newEnvelope_done (r := .ok query) h₁
      cases hquery
      unfold SessionManager.sendMessage at h₂
      simp only [call_bind, along_ask_done] at h₂
      obtain ⟨answer, tr₃, htr₂, h₃⟩ := h₂
      cases answer with
      | error text => exact .inr (.inr ⟨text, Except.ok.inj (along_pure_done.mp h₃).2⟩)
      | ok back =>
          obtain ⟨id, hback⟩ := hfail (signIfConfigured hmac config.signingSecret query) back
            taskId none (some "status_query") (by rw [htr, htr₂]; simp)
            (by rw [signIfConfigured_body, hbody])
          simp only [hback] at h₃
          exact .inr (.inl (Except.ok.inj (along_pure_done.mp h₃).2))

end Paths

section Runs
variable {parseRfc3339 : String → Option ℤ} {display : Value → String} {hmac : Hmac}
  {config : LdpAdapterConfig} {d : LdpDelegate} {work : Work} {url : String} {k : AdapterConfig}

theorem queriesFail_of_served (hd : d.signingSecret = none)
    (hserved : ServedBy display hmac d work url k) (i : ℕ) : QueriesFail url (traceOf i k.log) := by
  intro query back taskId progress message hmem hbody
  obtain ⟨x, hx, _, hevent⟩ := mem_traceOf.mp hmem
  exact query_failed hd hbody (hserved x hx query (.ok back) hevent)

/-- Every status and every event that is reported is a failure of the query. -/
theorem reports_failed (h : Adapting parseRfc3339 hmac config k) (hd : d.signingSecret = none)
    (hserved : ServedBy display hmac d work url k) :
    (∀ (i : ℕ) taskId status, k.calls[i]? = some (.status url taskId, done (.ok (.status status))) →
      status = .failed unknownType) ∧
    ∀ (i : ℕ) task ticks events,
      k.calls[i]? = some (.stream url task ticks, done (.ok (.events events))) →
      ∀ event ∈ events, event = .failed unknownType ∨
        ∃ text, event = .failed (LdpError.transport "STREAM_ERROR" text) := by
  constructor
  · intro i taskId status hi
    obtain ⟨r, hr, hreport⟩ := (h.follows.along i _ _ hi).of_bind_map
    cases r with
    | error e => cases hreport
    | ok found =>
        cases hreport
        exact status_failed (queriesFail_of_served hd hserved i) hr
  · intro i task ticks events hi event hevent
    obtain ⟨r, hr, hreport⟩ := (h.follows.along i _ _ hi).of_bind_map
    cases r with
    | error e => cases hreport
    | ok found =>
        cases hreport
        rcases hr.of_bind_done with ⟨_, _, hbad⟩ | ⟨handle, tr₁, tr₂, _, h₂, htr⟩
        · cases hbad
        have hfail : QueriesFail url tr₂ :=
          (queriesFail_of_served hd hserved i).mono (by rw [htr]; simp)
        rcases pollUpdates_failed hfail h₂ with hnone | hunknown | ⟨text, htransport⟩
        · rw [hnone] at hevent
          cases hevent
        · rw [hunknown] at hevent
          exact .inl (List.mem_singleton.mp hevent)
        · rw [htransport] at hevent
          exact .inr ⟨text, List.mem_singleton.mp hevent⟩

end Runs

section Replies
variable {display : Value → String} {hmac : Hmac} {d : LdpDelegate} {config : LdpAdapterConfig}
  {outcome : Except String (Value × ℚ)} {e : LdpEnvelope}

/-- The id and the reading of the clock in quiet surroundings. -/
def drawnId : String := "9f1c1f0e-6f7e-4a0b-9a55-0d6a3b1c2d4e"

def epoch : String := "1970-01-01T00:00:00+00:00"

/-- Surroundings of the delegate in which every task has one outcome. -/
def tasking (outcome : Except String (Value × ℚ)) : (q : DelegateCall) → Unit → q.Answer × Unit
  | .handleTask _ _ _, _ => (.ok outcome, ())
  | q, s => obliging q s

/-- The delegate handling one message, over a wire that loses nothing. -/
def reply (display : Value → String) (hmac : Hmac) (d : LdpDelegate)
    (outcome : Except String (Value × ℚ)) (e : LdpEnvelope) : Except String LdpEnvelope :=
  match PythonMessages.LdpEnvelope.modelValidate LinkedDelegate.defaults e.toValue with
  | none => .error LinkedDelegate.internalError
  | some envelope =>
      match (Program.exec (tasking outcome) (d.handleMessage display hmac envelope) ()).2.2 with
      | .error _ => .error LinkedDelegate.internalError
      | .ok response =>
          match LdpEnvelope.fromValue response.modelDump with
          | some back => .ok back
          | none => .error "Failed to parse LDP response"

theorem tasking_events (work : Work) (p : DelegateProgram PythonMessages.LdpEnvelope) :
    ∀ taskId a, ⟨.handleTask work.skill work.input taskId, a⟩ ∈
      (Program.exec (tasking work.outcome) p ()).1 → a = .ok work.outcome := by
  intro taskId a hmem
  refine exec_events (P := fun ev : Event DelegateCall DelegateCall.Answer =>
    ∀ a, ev = ⟨.handleTask work.skill work.input taskId, a⟩ → a = .ok work.outcome)
    ?_ p () _ hmem a rfl
  intro q s a hq
  cases q with
  | handleTask =>
      cases hq
      rfl
  | _ => cases hq

theorem reply_answered (work : Work) (e : LdpEnvelope) :
    Answered display hmac d work e (reply display hmac d work.outcome e) := by
  unfold reply
  cases hvalid : PythonMessages.LdpEnvelope.modelValidate LinkedDelegate.defaults e.toValue with
  | none => exact .failed _
  | some envelope =>
      have hrun : DelegateRun (d.handleMessage display hmac envelope) _ _ :=
        exec_run (tasking work.outcome) (fun _ _ => trivial) _ ()
      have htask := tasking_events work (d.handleMessage display hmac envelope)
      dsimp only
      cases hr : (Program.exec (tasking work.outcome)
          (d.handleMessage display hmac envelope) ()).2.2 with
      | error raised => exact .failed _
      | ok response =>
          rw [hr] at hrun
          dsimp only
          cases hback : LdpEnvelope.fromValue response.modelDump with
          | none => exact .failed _
          | some back => exact .read hvalid hrun htask hback

/-- A message that Python reads and whose dispatch gives a response that Rust
reads is answered. -/
theorem reply_of_dispatch (hd : d.signingSecret = none) {b : PythonMessages.LdpMessageBody}
    {response : PythonMessages.LdpEnvelope} {body : LdpMessageBody} (hp : e.provenance = none)
    (hb : PythonMessages.LdpMessageBody.modelValidate LinkedDelegate.defaults e.body.toValue =
      some b)
    (hr : (Program.exec (tasking outcome) (d.dispatch display (CrossWire.received e b)) ()).2.2 =
      .ok response) (hnone : response.provenance = none)
    (hbody : LdpMessageBody.fromValue response.body.modelDump = some body) :
    reply display hmac d outcome e = .ok (CrossWire.sent response body) := by
  unfold reply
  rw [CrossWire.modelValidate_toValue _ hp hb]
  simp only [LinkedDelegate.handleMessage_unsigned_eq hd, hr,
    CrossWire.fromValue_modelDump hnone hbody]

theorem reply_hello (hd : d.signingSecret = none) (hp : e.provenance = none) {id : String}
    {modes : List PayloadMode} (he : e.body = .hello id modes) :
    ∃ back, reply display hmac d outcome e = .ok back ∧
      back.body = .capabilityManifest d.capabilityList := by
  refine ⟨_, reply_of_dispatch hd hp (b := .hello id modes) ?_ rfl rfl
    (CrossWire.fromValue_capabilityManifest _), rfl⟩
  rw [he]
  exact CrossWire.modelValidate_hello _ _ _

theorem reply_propose (hd : d.signingSecret = none) (hp : e.provenance = none)
    (ht : d.identity.trustDomain.trusts config.trustDomain.name = true) {mode : PayloadMode}
    (he : e.body = .sessionPropose (proposeConfig config mode)) :
    ∃ back id accepted, reply display hmac d outcome e = .ok back ∧
      back.body = .sessionAccept id accepted := by
  have hb : PythonMessages.LdpMessageBody.modelValidate LinkedDelegate.defaults e.body.toValue =
      some (.sessionPropose [("payload_mode", mode.toValue),
        ("ttl_secs", .ofU64 config.session.ttlSecs),
        ("trust_domain", .string config.trustDomain.name)]) := by
    rw [he]
    exact CrossWire.modelValidate_sessionPropose _ _
  let envelope := CrossWire.received e (.sessionPropose [("payload_mode", mode.toValue),
    ("ttl_secs", .ofU64 config.session.ttlSecs), ("trust_domain", .string config.trustDomain.name)])
  have htrusts : d.trustsValue (LdpDelegate.remoteDomain envelope) = true := ht
  have hr : (Program.exec (tasking outcome) (d.dispatch display envelope) ()).2.2 =
      .ok (PythonMessages.LdpEnvelope.create drawnId
        epoch drawnId d.identity.delegateId
        envelope.from_ (.sessionAccept drawnId
          (LinkedDelegate.negotiated d [] envelope).mode) .text) := by
    rw [LinkedDelegate.dispatch_propose rfl, LdpDelegate.handleSessionPropose, if_pos htrusts]
    rfl
  exact ⟨_, _, _, reply_of_dispatch hd hp hb hr rfl (CrossWire.fromValue_sessionAccept _ _), rfl⟩

/-- What the delegate writes about a result can be read. -/
theorem fromValue_provenance (p : PythonMessages.Provenance) (htokens : p.tokensUsed = none)
    (hevidence : p.evidence = []) (hlineage : p.lineage = []) :
    (Provenance.fromValue p.modelDump).isSome = true := by
  obtain ⟨producedBy, modelVersion, payloadModeUsed, confidence, verified, sessionId, timestamp,
    tokensUsed, costUsd, contractId, contractSatisfied, contractViolations, status, evidence,
    lineage⟩ := p
  cases htokens
  cases hevidence
  cases hlineage
  simp [Provenance.fromValue, PythonMessages.Provenance.modelDump, Value.field, Value.optionField,
    Value.defaultField, List.lookup]
  cases contractSatisfied <;> rfl

theorem fromValue_taskResult (taskId : String) (output : Value)
    (p : PythonMessages.Provenance) (htokens : p.tokensUsed = none)
    (hevidence : p.evidence = []) (hlineage : p.lineage = []) :
    ∃ provenance, LdpMessageBody.fromValue
      (PythonMessages.LdpMessageBody.taskResult taskId output p).modelDump =
        some (.taskResult taskId output provenance) := by
  have hread : LdpMessageBody.fromValue
      (PythonMessages.LdpMessageBody.taskResult taskId output p).modelDump =
        (Provenance.fromValue p.modelDump).bind fun provenance =>
          some (.taskResult taskId output provenance) := rfl
  obtain ⟨provenance, hprovenance⟩ :=
    Option.isSome_iff_exists.mp (fromValue_provenance p htokens hevidence hlineage)
  exact ⟨provenance, by rw [hread, hprovenance]; rfl⟩

theorem reply_submit (hd : d.signingSecret = none) (hp : e.provenance = none)
    {taskId skill : String} {input : Value} (he : e.body = .taskSubmit taskId skill input none) :
    ∃ back, reply display hmac d outcome e = .ok back := by
  have hb : PythonMessages.LdpMessageBody.modelValidate LinkedDelegate.defaults e.body.toValue =
      some { type := "TASK_SUBMIT", taskId := some taskId, skill := some skill,
             input := input } := by
    rw [he]
    rfl
  let envelope := CrossWire.received e
    { type := "TASK_SUBMIT", taskId := some taskId, skill := some skill, input := input }
  have hdispatch : d.dispatch display envelope = d.handleTaskSubmit envelope := rfl
  have hid : ∃ id, (Program.exec (tasking outcome)
      (LdpDelegate.taskIdOrNew envelope) ()).2 = ((), .ok id) := by
    unfold LdpDelegate.taskIdOrNew
    split <;> exact ⟨_, rfl⟩
  obtain ⟨id, hid⟩ := hid
  cases outcome with
  | error text =>
      have hr : (Program.exec (tasking (.error text)) (d.dispatch display envelope) ()).2.2 =
          .ok (PythonMessages.LdpEnvelope.create drawnId
            epoch envelope.sessionId d.identity.delegateId envelope.from_
            (.taskFailed id (.runtime "TASK_EXECUTION_ERROR" text)) .text) := by
        rw [hdispatch, LdpDelegate.handleTaskSubmit, exec_bind hid]
        rfl
      exact ⟨_, reply_of_dispatch hd hp hb hr rfl (fromValue_taskFailed _ _ _)⟩
  | ok made =>
      obtain ⟨output, confidence⟩ := made
      have hr : (Program.exec (tasking (.ok (output, confidence)))
          (d.dispatch display envelope) ()).2.2 =
          .ok (PythonMessages.LdpEnvelope.create drawnId
            epoch envelope.sessionId d.identity.delegateId envelope.from_
            (.taskResult id output (d.resultProvenance envelope confidence
              epoch)) envelope.payloadMode) := by
        rw [hdispatch, LdpDelegate.handleTaskSubmit, exec_bind hid]
        rfl
      obtain ⟨provenance, hread⟩ := fromValue_taskResult id output
        (d.resultProvenance envelope confidence epoch) rfl rfl rfl
      exact ⟨_, reply_of_dispatch hd hp hb hr rfl hread⟩

theorem reply_query (hd : d.signingSecret = none) (hp : e.provenance = none)
    {taskId : String} {progress : Option ℚ} {message : Option String}
    (he : e.body = .taskUpdate taskId progress message) :
    ∃ back id, reply display hmac d outcome e = .ok back ∧
      back.body = .taskFailed id unknownType := by
  have hb : PythonMessages.LdpMessageBody.modelValidate LinkedDelegate.defaults e.body.toValue =
      some { type := "TASK_UPDATE", taskId := some taskId, progress := progress,
             message := message } := by
    rw [he]
    cases progress <;> cases message <;> rfl
  refine ⟨_, taskId, reply_of_dispatch hd hp hb rfl rfl (fromValue_taskFailed _ _ _), rfl⟩

end Replies

section Outcomes
variable {parseRfc3339 : String → Option ℤ} {display : Value → String} {hmac : Hmac}
  {config : LdpAdapterConfig} {d : LdpDelegate} {outcome : Except String (Value × ℚ)}
  {url taskId : String} {s : ClientState}

/-- The adapter's surroundings with the delegate as its network. -/
def delegated (display : Value → String) (hmac : Hmac) (d : LdpDelegate)
    (outcome : Except String (Value × ℚ)) : (q : ClientCall) → ClientState → q.Answer × ClientState
  | .sendMessage _ e, s => (reply display hmac d outcome e, s)
  | q, s => q.offline s

theorem delegated_meaning (q : ClientCall) (s : ClientState) : ClientCall.Meaning q s
    (delegated display hmac d outcome q s).1 (delegated display hmac d outcome q s).2 := by
  cases q with
  | sendMessage url e => rfl
  | _ => exact ClientCall.offline_meaning _ s

/-- In these surroundings the program gives such a result. -/
def Gives {α : Type} (display : Value → String) (hmac : Hmac) (d : LdpDelegate)
    (outcome : Except String (Value × ℚ)) (p : ClientProgram α) (s : ClientState)
    (post : α → Prop) : Prop :=
  ∃ t a, (Program.exec (delegated display hmac d outcome) p s).2 = (t, .ok a) ∧ post a

theorem Gives.bind {α β : Type} {p : ClientProgram α} {f : α → ClientProgram β}
    {post : α → Prop} {post' : β → Prop} (h : Gives display hmac d outcome p s post)
    (hf : ∀ a t, post a → Gives display hmac d outcome (f a) t post') :
    Gives display hmac d outcome (p >>= f) s post' := by
  obtain ⟨t, a, hp, ha⟩ := h
  obtain ⟨u, b, hfa, hb⟩ := hf a t ha
  exact ⟨u, b, (exec_bind hp).trans hfa, hb⟩

theorem newEnvelope_gives (sessionId from_ to_ : String) (body : LdpMessageBody)
    (payloadMode : PayloadMode) (s : ClientState) : Gives display hmac d outcome
      (newEnvelope sessionId from_ to_ body payloadMode) s fun e =>
        e.body = body ∧ e.provenance = none :=
  ⟨s, LdpEnvelope.new drawnId epoch sessionId from_ to_ body payloadMode, rfl, rfl, rfl⟩

theorem sendSigned_gives (hc : config.signingSecret = none) {e back : LdpEnvelope}
    (h : reply display hmac d outcome e = .ok back) (s : ClientState) :
    Gives display hmac d outcome (sendSigned hmac config url e) s (· = back) := by
  refine ⟨s, back, ?_, rfl⟩
  unfold sendSigned SessionManager.sendMessage
  rw [hc]
  have hsend : (delegated display hmac d outcome
      (.sendMessage url (signIfConfigured hmac none e)) s).1 = .ok back := h
  simp only [call_bind, Program.exec, hsend]
  rfl

theorem proposeSession_gives (hd : d.signingSecret = none) (hc : config.signingSecret = none)
    (ht : d.identity.trustDomain.trusts config.trustDomain.name = true) (remoteDelegateId : String)
    (remote : List PayloadMode) (s : ClientState) : Gives display hmac d outcome
      (proposeSession hmac config url remoteDelegateId remote) s fun _ => True := by
  unfold proposeSession
  have hid : Gives display hmac d outcome SessionManager.newV4 s fun _ => True :=
    ⟨s, drawnId, rfl, trivial⟩
  apply hid.bind
  intro sessionId t _
  apply (newEnvelope_gives ..).bind
  intro propose t hpropose
  obtain ⟨answer, id, accepted, hanswer, hbody⟩ := reply_propose hd hpropose.2 ht hpropose.1
  apply (sendSigned_gives hc hanswer t).bind
  intro back t hback
  rw [hback]
  unfold finishHandshake
  rw [hbody]
  exact ⟨t, _, rfl, trivial⟩

theorem establishSession_gives (hd : d.signingSecret = none) (hc : config.signingSecret = none)
    (ht : d.identity.trustDomain.trusts config.trustDomain.name = true) (s : ClientState) :
    Gives display hmac d outcome (establishSession hmac config url) s fun _ => True := by
  unfold establishSession
  apply (newEnvelope_gives ..).bind
  intro hello t hhello
  obtain ⟨manifest, hmanifest, hbody⟩ := reply_hello hd hhello.2 hhello.1
  apply (sendSigned_gives hc hmanifest t).bind
  intro back t hback
  rw [hback, hbody]
  exact proposeSession_gives hd hc ht _ _ t

/-- A first submission to a delegate that trusts the adapter's domain succeeds,
whatever becomes of the task. -/
theorem invoke_gives (hd : d.signingSecret = none) (hc : config.signingSecret = none)
    (ht : d.identity.trustDomain.trusts config.trustDomain.name = true) {task : TaskRequest}
    (htask : task.contract = none) :
    Gives display hmac d outcome (invoke hmac config url task) .empty fun _ => True := by
  have hsession : Gives display hmac d outcome (getOrEstablish hmac config url) .empty
      fun _ => True := by
    have hcached : Gives display hmac d outcome (getSession url) .empty (· = none) :=
      ⟨_, _, rfl, rfl⟩
    apply hcached.bind
    intro cached t hnone
    rw [hnone]
    apply (establishSession_gives hd hc ht t).bind
    intro session t _
    exact ⟨_, _, rfl, trivial⟩
  apply hsession.bind
  intro session t _
  have hid : Gives display hmac d outcome SessionManager.newV4 t fun _ => True :=
    ⟨t, drawnId, rfl, trivial⟩
  apply hid.bind
  intro taskId t _
  apply (newEnvelope_gives ..).bind
  intro submit t hsubmit
  rw [htask] at hsubmit
  obtain ⟨back, hback⟩ := reply_submit hd hsubmit.2 hsubmit.1
  apply (sendSigned_gives hc hback t).bind
  intro _ t _
  rw [htask]
  exact ⟨_, _, rfl, trivial⟩

theorem status_gives (hd : d.signingSecret = none) (hc : config.signingSecret = none)
    (s : ClientState) : Gives display hmac d outcome
      (LdpAdapter.status parseRfc3339 hmac config url taskId) s fun _ => True := by
  apply (newEnvelope_gives ..).bind
  intro query t hquery
  obtain ⟨back, id, hback, hbody⟩ := reply_query hd hquery.2 hquery.1
  apply (sendSigned_gives hc hback t).bind
  intro answer t hanswer
  rw [hanswer, hbody]
  exact ⟨t, _, rfl, trivial⟩

end Outcomes

section Failures
variable (parseRfc3339 : String → Option ℤ) (display : Value → String) (hmac : Hmac)
  (config : LdpAdapterConfig) (d : LdpDelegate) (url : String)

/-- A call in these surroundings, made when nothing else is under way. -/
theorem call_served (work : Work) {k : AdapterConfig} (op : Operation) {t : ClientState}
    {report : Report} (hserved : ServedBy display hmac d work url k)
    (h : (Program.exec (delegated display hmac d work.outcome)
      (reported parseRfc3339 hmac config op) k.state).2 = (t, .ok report)) :
    ∃ k', Moves ClientCall.Meaning (reported parseRfc3339 hmac config) k k' ∧
      ServedBy display hmac d work url k' ∧ k'.calls = k.calls ++ [(op, done (.ok report))] := by
  have hrun := exec_run (M := ClientCall.Meaning) (E := Quiet)
    (delegated display hmac d work.outcome) delegated_meaning
    (reported parseRfc3339 hmac config op) k.state
  rw [h] at hrun
  obtain ⟨steps, hmoves, _, hevents⟩ := Moves.call k hrun
  refine ⟨_, hmoves, ?_, rfl⟩
  intro x hx e a hevent
  rcases List.mem_append.mp hx with hold | hnew
  · exact hserved x hold e a hevent
  · have hmem : x.event ∈ (Program.exec (delegated display hmac d work.outcome)
        (reported parseRfc3339 hmac config op) k.state).1 := by
      rw [← hevents]
      exact List.mem_map_of_mem hnew
    refine exec_events (P := fun ev : Event ClientCall ClientCall.Answer => ∀ e a,
      ev = ⟨.sendMessage url e, a⟩ → Answered display hmac d work e a) ?_ _ _ _ hmem e a hevent
    intro q s e a hq
    cases q with
    | sendMessage to_ message =>
        cases hq
        exact reply_answered work _
    | _ => cases hq

/-- One submission and then one query, with nothing lost. -/
theorem submitted_and_queried (hd : d.signingSecret = none) (hc : config.signingSecret = none)
    (ht : d.identity.trustDomain.trusts config.trustDomain.name = true) (task : TaskRequest)
    (outcome : Except String (Value × ℚ)) (htask : task.contract = none) :
    ∃ k₁ k handle status, Adapting parseRfc3339 hmac config k₁ ∧
      Moves ClientCall.Meaning (reported parseRfc3339 hmac config) k₁ k ∧
      ServedBy display hmac d ⟨task.skill, task.input, outcome⟩ url k ∧
      k₁.calls = [(.invoke url task, done (.ok (.handle handle)))] ∧
      k.calls = k₁.calls ++ [(.status url handle.taskId, done (.ok (.status status)))] := by
  have hgives : Gives display hmac d outcome (invoke hmac config url task) .empty fun _ => True :=
    invoke_gives hd hc ht htask
  obtain ⟨t₁, handle, hinvoke, _⟩ := hgives
  have hidle : ServedBy display hmac d ⟨task.skill, task.input, outcome⟩ url (idle .empty) := by
    intro x hx
    cases hx
  obtain ⟨k₁, hto₁, hserved₁, hcalls₁⟩ := call_served parseRfc3339 display hmac config d url
    ⟨task.skill, task.input, outcome⟩ (.invoke url task) hidle (exec_bind hinvoke)
  have hgives₁ : Gives display hmac d outcome
      (LdpAdapter.status parseRfc3339 hmac config url handle.taskId) k₁.state fun _ => True :=
    status_gives hd hc k₁.state
  obtain ⟨t₂, status, hstatus, _⟩ := hgives₁
  obtain ⟨k, hto, hserved, hcalls⟩ := call_served parseRfc3339 display hmac config d url
    ⟨task.skill, task.input, outcome⟩ (.status url handle.taskId) hserved₁ (exec_bind hstatus)
  exact ⟨k₁, k, handle, status, hto₁, hto, hserved, hcalls₁, hcalls⟩

/-- At a delegate of the Python SDK no task is ever reported as completed, and no
failure of a task as that failure: whatever the interleaving, a status is a failure
of the query and so is every event. And every task gets that far. -/
theorem never_reported (hd : d.signingSecret = none) (hc : config.signingSecret = none)
    (ht : d.identity.trustDomain.mutuallyTrusts config.trustDomain = true) (task : TaskRequest)
    (outcome : Except String (Value × ℚ)) (htask : task.contract = none) :
    (∀ k, Adapting parseRfc3339 hmac config k →
      ServedBy display hmac d ⟨task.skill, task.input, outcome⟩ url k →
      (∀ (i : ℕ) taskId status,
        k.calls[i]? = some (.status url taskId, done (.ok (.status status))) →
        status = .failed unknownType) ∧
      ∀ (i : ℕ) task ticks events,
        k.calls[i]? = some (.stream url task ticks, done (.ok (.events events))) →
        ∀ event ∈ events, event = .failed unknownType ∨
          ∃ text, event = .failed (LdpError.transport "STREAM_ERROR" text)) ∧
    ∃ k₁ k handle status, Adapting parseRfc3339 hmac config k₁ ∧
      Moves ClientCall.Meaning (reported parseRfc3339 hmac config) k₁ k ∧
      ServedBy display hmac d ⟨task.skill, task.input, outcome⟩ url k ∧
      k₁.calls = [(.invoke url task, done (.ok (.handle handle)))] ∧
      k.calls = k₁.calls ++ [(.status url handle.taskId, done (.ok (.status status)))] := by
  have htrusts : d.identity.trustDomain.trusts config.trustDomain.name = true := by
    unfold DelegateIdentity.TrustDomain.mutuallyTrusts at ht
    exact (Bool.and_eq_true_iff.mp ht).1
  exact ⟨fun k h hserved => reports_failed h hd hserved,
    submitted_and_queried parseRfc3339 display hmac config d url hd hc htrusts task outcome htask⟩

end Failures

def plainDelegate : LdpDelegate := { identity := DelegateGate.signingDelegate.identity }

theorem never_reported_plain : ∃ k₁ k handle status,
    Adapting (fun _ => none) submissionMac {} k₁ ∧
    Moves ClientCall.Meaning (reported (fun _ => none) submissionMac {}) k₁ k ∧
    ServedBy (fun _ => "") submissionMac plainDelegate ⟨"echo", .string "x", .ok (.string "y", 1)⟩
      "u" k ∧
    k₁.calls = [(.invoke "u" ⟨"echo", .string "x", none⟩, done (.ok (.handle handle)))] ∧
    k.calls = k₁.calls ++ [(.status "u" handle.taskId, done (.ok (.status status)))] :=
  (never_reported (fun _ => none) (fun _ => "") submissionMac {} plainDelegate "u" rfl rfl
    (by decide) ⟨"echo", .string "x", none⟩ (.ok (.string "y", 1)) rfl).2

/-- A task that was done is reported as failed. -/
theorem done_reported_failed : ¬ ∀ (parseRfc3339 : String → Option ℤ) (display : Value → String)
    (hmac : Hmac) (config : LdpAdapterConfig) (d : LdpDelegate) (url : String) (task : TaskRequest)
    (output : Value) (confidence : ℚ) (k₁ k : AdapterConfig) (i j : ℕ) (handle : TaskHandle)
    (status : TaskStatus), d.signingSecret = none → config.signingSecret = none →
    d.identity.trustDomain.mutuallyTrusts config.trustDomain = true → task.contract = none →
    Adapting parseRfc3339 hmac config k₁ →
    Moves ClientCall.Meaning (reported parseRfc3339 hmac config) k₁ k →
    ServedBy display hmac d ⟨task.skill, task.input, .ok (output, confidence)⟩ url k →
    k₁.calls[i]? = some (.invoke url task, done (.ok (.handle handle))) → k₁.calls.length ≤ j →
    k.calls[j]? = some (.status url handle.taskId, done (.ok (.status status))) →
    ∃ provenance, status = .completed (embedProvenance config output provenance) := by
  intro h
  let task : TaskRequest := ⟨"echo", .string "x", none⟩
  obtain ⟨k₁, k, handle, status, h₁, hto, hserved, hcalls₁, hcalls⟩ :=
    submitted_and_queried (fun _ => none) (fun _ => "") submissionMac {} plainDelegate "u" rfl rfl
      (by decide) task (.ok (.string "y", 1)) rfl
  have hinvoked : k₁.calls[0]? = some (.invoke "u" task, done (.ok (.handle handle))) := by
    rw [hcalls₁]
    rfl
  have hqueried : k.calls[1]? =
      some (.status "u" handle.taskId, done (.ok (.status status))) := by
    rw [hcalls, hcalls₁]
    rfl
  obtain ⟨provenance, hcompleted⟩ := h _ _ _ _ plainDelegate "u" task (.string "y") 1 k₁ k 0 1
    handle status rfl rfl (by decide) rfl h₁ hto hserved hinvoked (by rw [hcalls₁]; exact le_rfl)
    hqueried
  have hfailed := (reports_failed (h₁.trans hto) rfl hserved).1 1 _ _ hqueried
  rw [hfailed] at hcompleted
  cases hcompleted

end LdpProtocol.CrossTasks
