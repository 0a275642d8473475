import LdpProtocol.ServerHandlers

/-!
# What the server does to one message and to a sequence of messages

`Handled` says, case by case, what one uninterrupted dispatch does to the maps,
which handler invocations it makes and what it answers; every such run of the
dispatch is one of its cases. `Serves` is a sequence of messages handled one
after the other from empty maps, with the log of what happened.
-/
namespace LdpProtocol.ServerRuns
open InteractivePrograms InteractivePrograms.Program InterferedRuns
open JsonValues PayloadModes MessageTypes EnvelopeSigning ServerHandlers

abbrev Trace := List (Event ServerCall ServerCall.Answer)

/-- The handler invocation a question is, if it is one. -/
def invocation (ev : Event ServerCall ServerCall.Answer) : Option (String × Value) :=
  match ev.1 with
  | .handler skill input => some (skill, input)
  | _ => none

def invocations (tr : Trace) : List (String × Value) := tr.filterMap invocation

/-- What a status query answers about a record; only a completed task gets a
provenance, stamped when it is asked for. -/
def statusBody (srv : LdpServer) (taskId produced : String) (record : TaskRecord) :
    LdpMessageBody :=
  match record.state with
  | .completed =>
      .taskResult taskId (record.output.getD .null) (srv.completedProvenance produced)
  | .failed =>
      .taskFailed taskId (LdpError.runtime "TASK_FAILED" (record.error.getD "unknown error"))
  | state => .taskUpdate taskId none (some state.debugLower)

inductive Handled (srv : LdpServer) (e : LdpEnvelope) (s : ServerState) :
    List (String × Value) → ServerState → Except String LdpEnvelope → Prop
  | hello {delegateId : String} {supportedModes : List PayloadMode} {messageId now : String} :
      e.body = .hello delegateId supportedModes →
      Handled srv e s [] s
        (.ok (srv.response e messageId now (.capabilityManifest srv.capabilities) .text))
  | accept {config : Value} {opened : ℤ} {messageId now : String} :
      e.body = .sessionPropose config →
      srv.identity.trustDomain.trusts (LdpServer.remoteDomain config) = true →
      Handled srv e s []
        { s with sessions := s.sessions.insert e.sessionId (srv.proposedSession e config opened) }
        (.ok (srv.response e messageId now
          (.sessionAccept e.sessionId (srv.negotiated config).mode) .text))
  | reject {config : Value} {messageId now : String} :
      e.body = .sessionPropose config →
      srv.identity.trustDomain.trusts (LdpServer.remoteDomain config) = false →
      Handled srv e s [] s
        (.ok (srv.response e messageId now
          (.sessionReject (srv.trustReason (LdpServer.remoteDomain config))
            (some (LdpError.policy "TRUST_VIOLATION"
              (srv.trustReason (LdpServer.remoteDomain config))))) .text))
  | submit {taskId skill : String} {input output : Value}
      {contract : Option DelegationContract} {produced messageId now : String} :
      e.body = .taskSubmit taskId skill input contract →
      Handled srv e s [(skill, input)]
        { s with tasks := s.tasks.insert taskId (LdpServer.completedRecord taskId skill output) }
        (.ok (srv.response e messageId now
          (.taskResult taskId output (srv.completedProvenance produced))
          (LdpServer.sessionMode (s.sessions.lookup e.sessionId))))
  | query {taskId : String} {progress : Option ℚ} {message : Option String}
      {record : TaskRecord} {messageId now : String} (produced : String) :
      e.body = .taskUpdate taskId progress message → s.tasks.lookup taskId = some record →
      Handled srv e s [] s
        (.ok (srv.response e messageId now (statusBody srv taskId produced record) .text))
  | unknownTask {taskId : String} {progress : Option ℚ} {message : Option String} :
      e.body = .taskUpdate taskId progress message → s.tasks.lookup taskId = none →
      Handled srv e s [] s (.error ("Unknown task: " ++ taskId))
  | cancel {taskId messageId now : String} :
      e.body = .taskCancel taskId →
      Handled srv e s [] { s with tasks := s.tasks.erase taskId }
        (.ok (srv.response e messageId now
          (.taskFailed taskId (LdpError.runtime "CANCELLED" "Task cancelled by client")) .text))
  | close {reason : Option String} {messageId now : String} :
      e.body = .sessionClose reason →
      Handled srv e s [] { s with sessions := s.sessions.erase e.sessionId }
        (.ok (srv.response e messageId now (.sessionClose (some "acknowledged")) .text))
  | unhandled :
      e.body.tag ∉ ["HELLO", "SESSION_PROPOSE", "TASK_SUBMIT", "TASK_UPDATE", "TASK_CANCEL",
        "SESSION_CLOSE"] →
      Handled srv e s [] s (.error "Unhandled message type")

section Dispatch
variable {srv : LdpServer} {e : LdpEnvelope} {s u : ServerState} {tr : Trace}
  {r : Except String LdpEnvelope}

theorem respond_run {body : LdpMessageBody} {mode : PayloadMode}
    (h : Run ServerCall.Meaning Quiet (srv.respond e body mode) s tr u r) :
    u = s ∧ invocations tr = [] ∧
      ∃ messageId now, r = .ok (srv.response e messageId now body mode) := by
  unfold LdpServer.respond newV4 utcNowRfc3339 at h
  simp only [call_bind, pure_eq, quiet_ask, quiet_pure] at h
  obtain ⟨messageId, t, tr₁, ⟨_, rfl⟩, ⟨now, t', tr₂, ⟨_, rfl⟩, ⟨rfl, rfl, rfl⟩, rfl⟩, rfl⟩ := h
  exact ⟨rfl, rfl, messageId, now, rfl⟩

theorem handleSessionPropose_handled {config : Value} (hb : e.body = .sessionPropose config)
    (h : Run ServerCall.Meaning Quiet (srv.handleSessionPropose e config) s tr u r) :
    Handled srv e s (invocations tr) u r := by
  unfold LdpServer.handleSessionPropose utcNow insertSession at h
  split at h
  · next htrust =>
      simp only [call_bind, quiet_ask] at h
      obtain ⟨opened, t, tr₁, ⟨_, rfl⟩, ⟨_, t', tr₂, ⟨_, rfl⟩, hrest, rfl⟩, rfl⟩ := h
      obtain ⟨rfl, hinv, messageId, now, rfl⟩ := respond_run hrest
      have hnone : invocations (⟨.utcNow, opened⟩ :: ⟨.insertSession e.sessionId
          (srv.proposedSession e config opened), ()⟩ :: tr₂) = [] := hinv
      rw [hnone]
      exact .accept hb htrust
  · next htrust =>
      obtain ⟨rfl, hinv, messageId, now, rfl⟩ := respond_run h
      rw [hinv]
      exact .reject hb (Bool.not_eq_true _ ▸ htrust)

theorem handleTaskSubmit_handled {taskId skill : String} {input : Value}
    {contract : Option DelegationContract} (hb : e.body = .taskSubmit taskId skill input contract)
    (h : Run ServerCall.Meaning Quiet (srv.handleTaskSubmit e taskId skill input) s tr u r) :
    Handled srv e s (invocations tr) u r := by
  unfold LdpServer.handleTaskSubmit LdpServer.resultProvenance runHandler insertTask getSession
    utcNowRfc3339 at h
  simp only [call_bind, pure_eq, ask_bind, pure_bind_eq, quiet_ask] at h
  obtain ⟨output, _, _, ⟨_, rfl⟩, ⟨_, _, _, ⟨_, rfl⟩, ⟨produced, _, _, ⟨_, rfl⟩,
    ⟨session, _, tr₄, ⟨hsession, rfl⟩, hrest, rfl⟩, rfl⟩, rfl⟩, rfl⟩ := h
  obtain ⟨rfl, hinv, messageId, now, rfl⟩ := respond_run hrest
  have hone : invocations (⟨.handler skill input, output⟩ ::
      ⟨.insertTask taskId (LdpServer.completedRecord taskId skill output), ()⟩ ::
      ⟨.utcNowRfc3339, produced⟩ :: ⟨.getSession e.sessionId, session⟩ :: tr₄) =
      [(skill, input)] := congrArg (List.cons (skill, input)) hinv
  rw [hone, hsession]
  exact .submit hb

theorem handleTaskStatusQuery_handled {taskId : String} {progress : Option ℚ}
    {message : Option String} (hb : e.body = .taskUpdate taskId progress message)
    (h : Run ServerCall.Meaning Quiet (srv.handleTaskStatusQuery e taskId) s tr u r) :
    Handled srv e s (invocations tr) u r := by
  unfold LdpServer.handleTaskStatusQuery getTask at h
  simp only [call_bind, quiet_ask] at h
  obtain ⟨found, t, tr₁, ⟨hfound, ht⟩, hrest, rfl⟩ := h
  have hinv : invocations (⟨.getTask taskId, found⟩ :: tr₁) = invocations tr₁ := rfl
  rw [hinv]
  have hq : t = s := ht
  rw [hq] at hrest
  cases found with
  | none =>
      simp only [quiet_throw] at hrest
      obtain ⟨rfl, rfl, rfl⟩ := hrest
      exact .unknownTask hb hfound.symm
  | some record =>
      obtain ⟨id, skill, state, output, error⟩ := record
      cases state with
      | completed =>
          simp only [LdpServer.resultProvenance, utcNowRfc3339, call_bind, pure_eq, ask_bind,
            pure_bind_eq, quiet_ask] at hrest
          obtain ⟨produced, _, tr₂, ⟨_, rfl⟩, hrest, rfl⟩ := hrest
          obtain ⟨rfl, hinv₂, messageId, now, rfl⟩ := respond_run hrest
          have hnone : invocations (⟨.utcNowRfc3339, produced⟩ :: tr₂) = [] := hinv₂
          rw [hnone]
          exact .query produced hb hfound.symm
      | _ =>
          obtain ⟨rfl, hinv₂, messageId, now, rfl⟩ := respond_run hrest
          rw [hinv₂]
          exact .query "" hb hfound.symm

/-- Every uninterrupted dispatch is one of the cases. -/
theorem dispatch_handled (h : Run ServerCall.Meaning Quiet (srv.dispatch e) s tr u r) :
    Handled srv e s (invocations tr) u r := by
  unfold LdpServer.dispatch at h
  cases hb : e.body with
  | hello delegateId supportedModes =>
      rw [hb] at h
      obtain ⟨rfl, hinv, messageId, now, rfl⟩ := respond_run h
      rw [hinv]
      exact .hello hb
  | sessionPropose config =>
      rw [hb] at h
      exact handleSessionPropose_handled hb h
  | taskSubmit taskId skill input contract =>
      rw [hb] at h
      exact handleTaskSubmit_handled hb h
  | taskUpdate taskId progress message =>
      rw [hb] at h
      exact handleTaskStatusQuery_handled hb h
  | taskCancel taskId =>
      rw [hb] at h
      simp only [LdpServer.handleTaskCancel, removeTask, call_bind, quiet_ask] at h
      obtain ⟨_, _, tr₁, ⟨_, rfl⟩, hrest, rfl⟩ := h
      obtain ⟨rfl, hinv, messageId, now, rfl⟩ := respond_run hrest
      have hnone : invocations (⟨.removeTask taskId, ()⟩ :: tr₁) = [] := hinv
      rw [hnone]
      exact .cancel hb
  | sessionClose reason =>
      rw [hb] at h
      simp only [LdpServer.handleSessionClose, removeSession, call_bind, quiet_ask] at h
      obtain ⟨_, _, tr₁, ⟨_, rfl⟩, hrest, rfl⟩ := h
      obtain ⟨rfl, hinv, messageId, now, rfl⟩ := respond_run hrest
      have hnone : invocations (⟨.removeSession e.sessionId, ()⟩ :: tr₁) = [] := hinv
      rw [hnone]
      exact .close hb
  | _ =>
      rw [hb] at h
      simp only [quiet_throw] at h
      obtain ⟨rfl, rfl, rfl⟩ := h
      exact .unhandled (by simp [hb, LdpMessageBody.tag])

/-- An uninterrupted call is refused by the gate without a question, or is
dispatched and its response signed. -/
theorem handleMessage_handled {hmac : Hmac}
    (h : Run ServerCall.Meaning Quiet (srv.handleMessage hmac e) s tr u r) :
    (∃ error, srv.signatureError hmac e = some error ∧ tr = [] ∧ u = s ∧ r = .error error) ∨
    (srv.signatureError hmac e = none ∧ ∃ outcome, Handled srv e s (invocations tr) u outcome ∧
      r = outcome.map (signIfConfigured hmac srv.signingSecret)) := by
  unfold LdpServer.handleMessage at h
  cases hsig : srv.signatureError hmac e with
  | some error =>
      simp only [hsig, quiet_throw] at h
      obtain ⟨rfl, rfl, rfl⟩ := h
      exact .inl ⟨error, rfl, rfl, rfl, rfl⟩
  | none =>
      simp only [hsig] at h
      refine .inr ⟨rfl, ?_⟩
      rcases h.of_bind with ⟨response, t, tr₁, tr₂, hrun, hrest, rfl⟩ | ⟨error, hrun, rfl⟩
      · simp only [pure_eq, quiet_pure] at hrest
        obtain ⟨rfl, rfl, rfl⟩ := hrest
        rw [List.append_nil]
        exact ⟨_, dispatch_handled hrun, rfl⟩
      · exact ⟨_, dispatch_handled hrun, rfl⟩

end Dispatch

/-- The handler runs once for a submission that passes the gate, on its skill and
input, and for nothing else. -/
def dueInvocations (hmac : Hmac) (srv : LdpServer) (e : LdpEnvelope) : List (String × Value) :=
  match srv.signatureError hmac e, e.body with
  | none, .taskSubmit _ skill input _ => [(skill, input)]
  | _, _ => []

theorem handleMessage_invocations {hmac : Hmac} {srv : LdpServer} {e : LdpEnvelope}
    {s u : ServerState} {tr : Trace} {r : Except String LdpEnvelope}
    (h : Run ServerCall.Meaning Quiet (srv.handleMessage hmac e) s tr u r) :
    invocations tr = dueInvocations hmac srv e := by
  unfold dueInvocations
  rcases handleMessage_handled h with ⟨error, hsig, rfl, _, _⟩ | ⟨hsig, outcome, hd, _⟩
  · rw [hsig]
    rfl
  · rw [hsig]
    generalize invocations tr = inv at hd
    cases hd with
    | unhandled hb => cases hbody : e.body <;> simp_all [LdpMessageBody.tag]
    | _ => simp_all

/-- A submission that passes the gate is answered with its result, in the mode of
the session held under the envelope's session id. -/
theorem handleMessage_submit {hmac : Hmac} {srv : LdpServer} {e : LdpEnvelope}
    {s u : ServerState} {tr : Trace} {r : Except String LdpEnvelope}
    (h : Run ServerCall.Meaning Quiet (srv.handleMessage hmac e) s tr u r)
    (hsig : srv.signatureError hmac e = none) {taskId skill : String} {input : Value}
    {contract : Option DelegationContract} (hb : e.body = .taskSubmit taskId skill input contract) :
    ∃ response output provenance, r = .ok response ∧
      response.body = .taskResult taskId output provenance ∧
      response.payloadMode = LdpServer.sessionMode (s.sessions.lookup e.sessionId) := by
  rcases handleMessage_handled h with ⟨error, hrefused, _⟩ | ⟨_, outcome, hd, hr⟩
  · rw [hsig] at hrefused
    cases hrefused
  · generalize invocations tr = inv at hd
    cases hd with
    | @submit taskId' skill' input' output _ produced messageId now hb' =>
        rw [hb] at hb'
        cases hb'
        refine ⟨_, output, srv.completedProvenance produced, hr, ?_, ?_⟩
        · rw [signIfConfigured_body]
          rfl
        · rw [signIfConfigured_payloadMode]
          rfl
    | unhandled hu => simp [hb, LdpMessageBody.tag] at hu
    | _ => simp_all

/-- A session held after a dispatch was opened by it, or was held before and is
neither closed nor opened anew by it. -/
theorem Handled.held {srv : LdpServer} {e : LdpEnvelope} {s u : ServerState}
    {inv : List (String × Value)} {outcome : Except String LdpEnvelope}
    (h : Handled srv e s inv u outcome) {id : String} {session : LdpSession}
    (hl : u.sessions.lookup id = some session) :
    (∃ config opened messageId now, e.body = .sessionPropose config ∧
      srv.identity.trustDomain.trusts (LdpServer.remoteDomain config) = true ∧
      id = e.sessionId ∧ session = srv.proposedSession e config opened ∧
      outcome = .ok (srv.response e messageId now
        (.sessionAccept e.sessionId (srv.negotiated config).mode) .text)) ∨
    (s.sessions.lookup id = some session ∧ ∀ response, outcome = .ok response →
      e.sessionId = id → response.body ≠ .sessionClose (some "acknowledged") ∧
        ∀ mode, response.body ≠ .sessionAccept id mode) := by
  cases h with
  | @accept config opened messageId now hb ht =>
      by_cases hid : id = e.sessionId
      · subst hid
        rw [AList.lookup_insert] at hl
        exact .inl ⟨config, opened, messageId, now, hb, ht, rfl, (Option.some_inj.mp hl).symm, rfl⟩
      · rw [AList.lookup_insert_ne hid] at hl
        exact .inr ⟨hl, fun _ _ heq => (hid heq.symm).elim⟩
  | close hb =>
      by_cases hid : id = e.sessionId
      · subst hid
        rw [AList.lookup_erase] at hl
        cases hl
      · rw [AList.lookup_erase_ne hid] at hl
        exact .inr ⟨hl, fun _ _ heq => (hid heq.symm).elim⟩
  | @query taskId _ _ record _ _ produced _ _ =>
      refine .inr ⟨hl, ?_⟩
      intro response hr _
      cases hr
      simp only [LdpServer.response, LdpEnvelope.new, statusBody]
      cases record.state <;> simp
  | unknownTask => exact .inr ⟨hl, by simp⟩
  | unhandled => exact .inr ⟨hl, by simp⟩
  | _ => exact .inr ⟨hl, by simp [LdpServer.response, LdpEnvelope.new]⟩

/-- One message handled from arrival to answer. -/
structure Exchange where
  envelope : LdpEnvelope
  trace : Trace
  before : ServerState
  after : ServerState
  outcome : Except String LdpEnvelope

/-- Any senders' messages in any order, each handled to its end. -/
inductive Serves (hmac : Hmac) (srv : LdpServer) : List Exchange → ServerState → Prop
  | start : Serves hmac srv [] .empty
  | handle {log : List Exchange} {s u : ServerState} {e : LdpEnvelope} {tr : Trace}
      {r : Except String LdpEnvelope} : Serves hmac srv log s →
      Run ServerCall.Meaning Quiet (srv.handleMessage hmac e) s tr u r →
      Serves hmac srv (log ++ [⟨e, tr, s, u, r⟩]) u

/-- Every exchange of a log is a run from where the exchanges before it led. -/
theorem Serves.split {hmac : Hmac} {srv : LdpServer} {log : List Exchange} {s : ServerState}
    (h : Serves hmac srv log s) {before after : List Exchange} {x : Exchange}
    (hlog : log = before ++ x :: after) :
    Serves hmac srv before x.before ∧
      Run ServerCall.Meaning Quiet (srv.handleMessage hmac x.envelope) x.before x.trace x.after
        x.outcome := by
  induction h generalizing after with
  | start => simp at hlog
  | @handle log s u e tr r hserves hrun ih =>
      rcases List.eq_nil_or_concat after with hnil | ⟨rest, last, hconcat⟩
      · subst hnil
        obtain ⟨hbefore, hx⟩ := List.append_inj' hlog rfl
        cases hx
        subst hbefore
        exact ⟨hserves, hrun⟩
      · rw [hconcat, List.concat_eq_append, ← List.cons_append, ← List.append_assoc] at hlog
        exact ih (List.append_inj' hlog rfl).1

/-- The exchange accepted a proposal for this session from a trusted domain. -/
def Exchange.Opened (srv : LdpServer) (x : Exchange) (session : LdpSession) : Prop :=
  ∃ config, x.envelope.body = .sessionPropose config ∧
    srv.identity.trustDomain.trusts (LdpServer.remoteDomain config) = true ∧
    session.sessionId = x.envelope.sessionId ∧
    session.remoteDelegateId = x.envelope.from_ ∧
    ∃ response, x.outcome = .ok response ∧
      response.body = .sessionAccept session.sessionId session.payload.mode

/-- The exchange closed the session, or opened it anew. -/
def Exchange.Replaced (x : Exchange) (sessionId : String) : Prop :=
  x.envelope.sessionId = sessionId ∧ ∃ response, x.outcome = .ok response ∧
    (response.body = .sessionClose (some "acknowledged") ∨
      ∃ mode, response.body = .sessionAccept sessionId mode)

/-- A held session comes from an accepted proposal that no later message has
closed or replaced. -/
def Sourced (srv : LdpServer) (log : List Exchange) (session : LdpSession) : Prop :=
  ∃ earlier x later, log = earlier ++ x :: later ∧ x.Opened srv session ∧
    ∀ y ∈ later, ¬ y.Replaced session.sessionId

theorem Sourced.handle {srv : LdpServer} {log : List Exchange} {session : LdpSession}
    (h : Sourced srv log session) {x : Exchange} (hx : ¬ x.Replaced session.sessionId) :
    Sourced srv (log ++ [x]) session := by
  obtain ⟨earlier, y, later, rfl, hopen, hlater⟩ := h
  refine ⟨earlier, y, later ++ [x], by simp, hopen, ?_⟩
  intro z hz
  rcases List.mem_append.mp hz with hz | hz
  · exact hlater z hz
  · rw [List.mem_singleton.mp hz]
    exact hx

theorem Serves.sourced {hmac : Hmac} {srv : LdpServer} {log : List Exchange} {s : ServerState}
    (h : Serves hmac srv log s) {id : String} {session : LdpSession}
    (hl : s.sessions.lookup id = some session) :
    session.sessionId = id ∧ Sourced srv log session := by
  induction h generalizing id session with
  | start => cases hl
  | @handle log s u e tr r _ hrun ih =>
      rcases handleMessage_handled hrun with ⟨error, _, _, rfl, rfl⟩ | ⟨_, outcome, hd, rfl⟩
      · obtain ⟨hid, hsrc⟩ := ih hl
        refine ⟨hid, hsrc.handle ?_⟩
        intro hrep
        obtain ⟨_, _, hok, _⟩ := hrep
        cases hok
      · rcases hd.held hl with ⟨config, opened, messageId, now, hb, ht, rfl, rfl, rfl⟩ |
          ⟨hl', hkeep⟩
        · refine ⟨rfl, log, _, [], rfl, ⟨config, hb, ht, rfl, rfl, _, rfl, ?_⟩, by simp⟩
          rw [signIfConfigured_body]
          rfl
        · obtain ⟨hid, hsrc⟩ := ih hl'
          refine ⟨hid, hsrc.handle ?_⟩
          intro hrep
          obtain ⟨hsid, response, hok, hbody⟩ := hrep
          cases outcome with
          | error => cases hok
          | ok answer =>
              cases hok
              rw [signIfConfigured_body, hid] at hbody
              obtain ⟨hclose, haccept⟩ := hkeep answer rfl (hsid.trans hid)
              rcases hbody with hbody | ⟨mode, hbody⟩
              · exact hclose hbody
              · exact haccept mode hbody

end LdpProtocol.ServerRuns
