import LdpProtocol.TaskDelivery

/-!
# Tasks over a network that loses nothing

With one secret on both sides and a server that trusts the client's domain, every
message the client sends passes the gate and is answered. So a submission always
returns a handle, and what becomes of each later call about the task is known
beforehand: a status before the first cancellation, an error after it.
-/
namespace LdpProtocol.ReliableTasks
open InteractivePrograms InterferedRuns LinkedParties Relation
open InteractivePrograms.Program (call_bind pure_eq ask_bind pure_bind_eq total_pure)
open JsonValues PayloadModes MessageTypes EnvelopeSigning SessionManager LdpAdapter
open ServerHandlers (LdpServer ServerState ServerCall)
open LinkedSessionManager (Linked LinkedRun Exchange Trace newEnvelope_run sendSigned_run
  ask_clock ask_newV4)
open LinkedTasks AdapterVerdicts TaskDelivery

section Gate
variable {hmac : Hmac} {srv : LdpServer} {secret : Option String} {e : LdpEnvelope}
  {E : ServerState → ServerState → Prop} {s t : ServerState}
  {tr : List (Event ServerCall ServerCall.Answer)} {r : Except String LdpEnvelope}

/-- What is signed with the server's own secret passes. -/
theorem signed_accepted (h : srv.signingSecret = secret) (e : LdpEnvelope) :
    srv.signatureError hmac (signIfConfigured hmac secret e) = none := by
  cases hsecret : srv.signingSecret with
  | none =>
      unfold LdpServer.signatureError
      rw [hsecret]
  | some key =>
      rw [← h, hsecret]
      exact ServerGate.signatureError_of_valid hsecret (carriesValidSignature_applySignature ..)

/-- Past the gate, a dispatch that cannot fail is answered. -/
theorem answered_of_total (hgate : srv.signatureError hmac e = none)
    (htotal : (srv.dispatch e).Total)
    (h : Run ServerCall.Meaning E (srv.handleMessage hmac e) s tr t r) :
    ∃ response, r = .ok response := by
  apply h.ok_of_total
  unfold LdpServer.handleMessage
  rw [hgate]
  exact htotal.bind fun _ => total_pure _

/-- Past the gate, a query is answered unless it finds nothing. -/
theorem query_answered {taskId : String} {progress : Option ℚ} {message : Option String}
    (hgate : srv.signatureError hmac e = none) (hb : e.body = .taskUpdate taskId progress message)
    (h : Run ServerCall.Meaning E (srv.handleMessage hmac e) s tr t r) :
    ∃ u, ReflTransGen E s u ∧ (u.tasks.lookup taskId = none ∨ ∃ response, r = .ok response) := by
  unfold LdpServer.handleMessage LdpServer.dispatch at h
  rw [hgate, hb] at h
  simp only [LdpServer.handleTaskStatusQuery, ServerHandlers.getTask, call_bind, ask_bind] at h
  obtain ⟨u, found, v, tr₁, hu, ⟨hfound, _⟩, hrun, _⟩ := run_ask.mp h
  have hlookup : found = u.tasks.lookup taskId := hfound
  refine ⟨u, hu, ?_⟩
  rw [← hlookup]
  cases found with
  | none => exact .inl rfl
  | some record =>
      refine .inr (hrun.ok_of_total ?_)
      obtain ⟨id, skill, state, output, error⟩ := record
      have hrespond := ServerGate.respond_total srv e
      cases state with
      | completed =>
          exact ((ServerGate.resultProvenance_total srv).bind fun _ => hrespond _ _).bind
            fun _ => total_pure _
      | _ => exact (hrespond _ _).bind fun _ => total_pure _

end Gate

section Exchanges
variable {hmac : Hmac} {srv : LdpServer} {handles : Handler}
  {others : List String → ServerState → ServerState → Prop} {drawn : List String}
  {e : LdpEnvelope} {s t : ServerState} {answer : Except String LdpEnvelope}

/-- A message that the server answers with something readable comes back answered. -/
theorem exchange_ok (he : e.body.errors = [])
    (hanswered : ∀ tr t r,
      Run ServerCall.Meaning (others drawn) (srv.handleMessage hmac e) s tr t r →
      ∃ response, r = .ok response ∧
        ∀ err ∈ response.body.errors, err.partialOutput ≠ some .null)
    (h : Exchange (Works hmac srv handles others) False drawn e s answer t) :
    ∃ back tr, answer = .ok back ∧
      Run ServerCall.Meaning (others drawn) (srv.handleMessage hmac e) s tr t (.ok back) := by
  have hreliable := h.reliable (G := fun back t => ∃ tr, Run ServerCall.Meaning (others drawn)
    (srv.handleMessage hmac e) s tr t (.ok back)) ?_
  · obtain ⟨back, hback, tr, hrun⟩ := hreliable
    exact ⟨back, tr, hback, hrun⟩
  · intro wire t hserved
    obtain ⟨tr, r, hrun, _, hwire⟩ := worked he hserved
    obtain ⟨response, hr, hreadable⟩ := hanswered tr t r hrun
    rw [hr] at hrun hwire
    exact ⟨response.toValue, response, hwire, LdpEnvelope.fromValue_toValue response hreadable,
      tr, hrun⟩

section
variable (hgate : srv.signatureError hmac e = none)
include hgate

theorem hello_ok {delegateId : String} {modes : List PayloadMode}
    (hb : e.body = .hello delegateId modes)
    (h : Exchange (Works hmac srv handles others) False drawn e s answer t) :
    ∃ back, answer = .ok back ∧ back.body = .capabilityManifest srv.capabilities := by
  have htotal : (srv.dispatch e).Total := by
    unfold LdpServer.dispatch
    rw [hb]
    exact ServerGate.respond_total srv e _ _
  obtain ⟨back, tr, hback, hrun⟩ := exchange_ok (by rw [hb]; rfl) (fun tr t r hrun => by
    obtain ⟨response, hr⟩ := answered_of_total hgate htotal hrun
    have hmanifest := ((LinkedServer.hello_among hb hrun).2 response hr).1
    exact ⟨response, hr, by simp [hmanifest, LdpMessageBody.errors]⟩) h
  exact ⟨back, hback, ((LinkedServer.hello_among hb hrun).2 back rfl).1⟩

/-- A proposal from a trusted domain is accepted. -/
theorem propose_ok {proposed : Value} (hb : e.body = .sessionPropose proposed)
    (htrust : srv.identity.trustDomain.trusts (LdpServer.remoteDomain proposed) = true)
    (h : Exchange (Works hmac srv handles others) False drawn e s answer t) :
    ∃ back mode, answer = .ok back ∧ back.body = .sessionAccept e.sessionId mode := by
  have htotal : (srv.dispatch e).Total := by
    unfold LdpServer.dispatch
    rw [hb]
    exact ServerGate.handleSessionPropose_total srv e proposed
  have haccepted : ∀ tr t response, Run ServerCall.Meaning (others drawn) (srv.handleMessage hmac e)
      s tr t (.ok response) → response.body =
        .sessionAccept e.sessionId (srv.negotiated proposed).mode := by
    intro tr t response hrun
    rcases LinkedServer.propose_among hb hrun with ⟨haccept, _⟩ | ⟨hdistrust, _⟩
    · exact haccept
    · rw [htrust] at hdistrust
      cases hdistrust
  obtain ⟨back, tr, hback, hrun⟩ := exchange_ok (by rw [hb]; rfl) (fun tr t r hrun => by
    obtain ⟨response, hr⟩ := answered_of_total hgate htotal hrun
    rw [hr] at hrun
    exact ⟨response, hr, by simp [haccepted _ _ _ hrun, LdpMessageBody.errors]⟩) h
  exact ⟨back, _, hback, haccepted _ _ _ hrun⟩

theorem submit_ok {taskId skill : String} {input : Value} {contract : Option DelegationContract}
    (hb : e.body = .taskSubmit taskId skill input contract)
    (h : Exchange (Works hmac srv handles others) False drawn e s answer t) :
    ∃ back, answer = .ok back := by
  have htotal : (srv.dispatch e).Total := by
    unfold LdpServer.dispatch
    rw [hb]
    exact ServerGate.handleTaskSubmit_total srv e taskId skill input
  obtain ⟨back, _, hback, _⟩ := exchange_ok (by rw [hb]; rfl) (fun tr t r hrun => by
    obtain ⟨response, hr⟩ := answered_of_total hgate htotal hrun
    rw [hr] at hrun
    obtain ⟨_, _, hresult, _⟩ := submit_among hb hrun
    exact ⟨response, hr, by simp [hresult, LdpMessageBody.errors]⟩) h
  exact ⟨back, hback⟩

theorem cancel_ok {taskId : String} (hb : e.body = .taskCancel taskId)
    (h : Exchange (Works hmac srv handles others) False drawn e s answer t) :
    ∃ back, answer = .ok back := by
  have htotal : (srv.dispatch e).Total := by
    unfold LdpServer.dispatch
    rw [hb]
    exact ServerGate.handleTaskCancel_total srv e taskId
  obtain ⟨back, _, hback, _⟩ := exchange_ok (by rw [hb]; rfl) (fun tr t r hrun => by
    obtain ⟨response, hr⟩ := answered_of_total hgate htotal hrun
    rw [hr] at hrun
    rcases cancel_among hb hrun with ⟨_, error, hbad⟩ | ⟨_, response', hsame, hfailed, _⟩
    · cases hbad
    · rw [← Except.ok.inj hsame] at hfailed
      exact ⟨response, hr, by simp [hfailed, LdpMessageBody.errors, LdpError.runtime]⟩) h
  exact ⟨back, hback⟩

/-- A query for a record that is there is answered. -/
theorem query_ok (hothers : ∀ d s t, others d s t → Apart d s t) {taskId skill : String}
    {output : Value} {progress : Option ℚ} {message : Option String} (hid : taskId ∈ drawn)
    (hb : e.body = .taskUpdate taskId progress message)
    (hstored : s.tasks.lookup taskId = some (LdpServer.completedRecord taskId skill output))
    (h : Exchange (Works hmac srv handles others) False drawn e s answer t) :
    ∃ back, answer = .ok back := by
  obtain ⟨back, _, hback, _⟩ := exchange_ok (by rw [hb]; rfl) (fun tr t r hrun => by
    obtain ⟨u, hu, hnone | ⟨response, hr⟩⟩ := query_answered hgate hb hrun
    · rw [others_keep hothers hid hu, hstored] at hnone
      cases hnone
    · obtain ⟨v, record, produced, hv, hrecord, hbody⟩ := (query_among hb hrun).2 response hr
      rw [others_keep hothers hid hv, hstored] at hrecord
      rw [← Option.some.inj hrecord] at hbody
      have hresult : response.body =
          .taskResult taskId output (srv.completedProvenance produced) := hbody
      exact ⟨response, hr, by simp [hresult, LdpMessageBody.errors]⟩) h
  exact ⟨back, hback⟩

end
end Exchanges

section Calls
variable {parseRfc3339 : String → Option ℤ} {hmac : Hmac} {config : LdpAdapterConfig}
  {srv : LdpServer} {handles : Handler} {tasks : ClientState → ClientState → Prop}
  {others : List String → ServerState → ServerState → Prop} {w w' : Linked ServerState}
  {tr : Trace} {url taskId : String} {task : TaskRequest} {output : Value}

theorem rest_ok {p : ClientProgram (List Answer)} {answer : Answer}
    {r : Except String (List Answer)} {P : List Answer → Prop}
    (h : LinkedRun (Works hmac srv handles others) False tasks others
      (p >>= fun answers => .pure (answer :: answers)) w tr w' r)
    (hp : ∀ tr v r₁, LinkedRun (Works hmac srv handles others) False tasks others p w tr v r₁ →
      ∃ answers, r₁ = .ok answers ∧ P answers) :
    ∃ answers, r = .ok (answer :: answers) ∧ P answers := by
  rcases h.of_bind with ⟨rest, v, tr₁, tr₂, hrun, hend, _⟩ | ⟨error, hrun, _⟩
  · obtain ⟨answers, hok, hP⟩ := hp _ _ _ hrun
    rw [Except.ok.inj hok] at hend
    exact ⟨answers, (moved_pure hend).2.2, hP⟩
  · obtain ⟨answers, hbad, _⟩ := hp _ _ _ hrun
    cases hbad

/-- Both sides have the same secret, or none, and the server trusts the client's domain. -/
structure Matched (config : LdpAdapterConfig) (srv : LdpServer) : Prop where
  secret : srv.signingSecret = config.signingSecret
  trust : srv.identity.trustDomain.trusts config.trustDomain.name = true

theorem Matched.accepts (h : Matched config srv) (e : LdpEnvelope) :
    srv.signatureError hmac (signIfConfigured hmac config.signingSecret e) = none :=
  signed_accepted h.secret e

/-- A message that is always answered is sent and its answer is passed on. -/
theorem sendSigned_ok {α : Type} {e : LdpEnvelope} {f : LdpEnvelope → ClientProgram α}
    {P : LdpEnvelope → Prop} {r : Except String α}
    (hanswered : ∀ drawn s t answer, Exchange (Works hmac srv handles others) False drawn
      (signIfConfigured hmac config.signingSecret e) s answer t →
      ∃ back, answer = .ok back ∧ P back)
    (h : LinkedRun (Works hmac srv handles others) False tasks others
      (sendSigned hmac config url e >>= f) w tr w' r) :
    ∃ back v tr₁, P back ∧
      LinkedRun (Works hmac srv handles others) False tasks others (f back) v tr₁ w' r := by
  obtain ⟨v, p, answer, _, hexchange, hrest⟩ := sendSigned_run h
  obtain ⟨back, hback, hP⟩ := hanswered _ _ _ _ hexchange
  rcases hrest with ⟨error, herror, _⟩ | ⟨back', tr₁, hsame, _, hrun⟩
  · rw [hback] at herror
    cases herror
  · rw [hback] at hsame
    rw [← Except.ok.inj hsame] at hrun
    exact ⟨back, _, tr₁, hP, hrun⟩

theorem remoteDomain_proposeConfig (config : LdpAdapterConfig) (mode : PayloadMode) :
    LdpServer.remoteDomain (proposeConfig config mode) = config.trustDomain.name := by
  have hdomain : (proposeConfig config mode).get "trust_domain" =
      some (.string config.trustDomain.name) := rfl
  simp [LdpServer.remoteDomain, hdomain]

/-- What comes of each call about a task: a verdict on the output as long as it is
stored, an error afterwards. -/
inductive Delivered (parseRfc3339 : String → Option ℤ) (config : LdpAdapterConfig)
    (srv : LdpServer) (task : TaskRequest) : Option Value → List FollowUp → List Answer → Prop
  | nil (stored : Option Value) : Delivered parseRfc3339 config srv task stored [] []
  | reported {output : Value} {status : TaskStatus} {calls : List FollowUp}
      {answers : List Answer} : Reports parseRfc3339 config srv task output status →
      Delivered parseRfc3339 config srv task (some output) calls answers →
      Delivered parseRfc3339 config srv task (some output) (.status :: calls)
        (.status (.ok status) :: answers)
  | unknown {calls : List FollowUp} {answers : List Answer} (error : String) :
      Delivered parseRfc3339 config srv task none calls answers →
      Delivered parseRfc3339 config srv task none (.status :: calls)
        (.status (.error error) :: answers)
  | cancelled {stored : Option Value} {calls : List FollowUp} {answers : List Answer} :
      Delivered parseRfc3339 config srv task none calls answers →
      Delivered parseRfc3339 config srv task stored (.cancel :: calls)
        (.cancelled (.ok ()) :: answers)

section
variable (hmatched : Matched config srv)
include hmatched

theorem proposeSession_ok {remoteDelegateId : String} {remote : List PayloadMode}
    {r : Except String LdpSession}
    (h : LinkedRun (Works hmac srv handles others) False tasks others
      (proposeSession hmac config url remoteDelegateId remote) w tr w' r) :
    ∃ session, r = .ok session := by
  unfold proposeSession SessionManager.newV4 at h
  simp only [call_bind] at h
  obtain ⟨sessionId, v, tr₁, _, _, hrun, _⟩ := ask_newV4 h
  obtain ⟨messageId, timestamp, v₁, tr₂, _, hrun₁, _⟩ := newEnvelope_run hrun
  obtain ⟨back, v₂, tr₃, ⟨acceptedId, mode, hbody⟩, hrun₂⟩ := sendSigned_ok
    (P := fun back => ∃ acceptedId mode, back.body = .sessionAccept acceptedId mode)
    (fun drawn s t answer hexchange => by
      obtain ⟨back, mode, hback, hbody⟩ := propose_ok (hmatched.accepts _)
        (signIfConfigured_body ..) (by rw [remoteDomain_proposeConfig]; exact hmatched.trust)
        hexchange
      exact ⟨back, hback, _, mode, hbody⟩) hrun₁
  unfold finishHandshake at hrun₂
  rw [hbody] at hrun₂
  obtain ⟨now, v₃, tr₄, _, hrun₃, _⟩ := ask_clock hrun₂
  exact ⟨_, (moved_pure hrun₃).2.2⟩

theorem establishAndCache_ok {r : Except String LdpSession}
    (h : LinkedRun (Works hmac srv handles others) False tasks others
      (establishAndCache hmac config url) w tr w' r) : ∃ session, r = .ok session := by
  have hestablished : ∀ w tr w' r, LinkedRun (Works hmac srv handles others) False tasks others
      (establishSession hmac config url) w tr w' r → ∃ session, r = .ok session := by
    intro w tr w' r h
    unfold establishSession at h
    obtain ⟨messageId, timestamp, v, tr₁, _, hrun, _⟩ := newEnvelope_run h
    obtain ⟨back, v₁, tr₂, hbody, hrun₁⟩ := sendSigned_ok
      (P := fun back => back.body = .capabilityManifest srv.capabilities)
      (fun _ _ _ _ hexchange =>
        hello_ok (hmatched.accepts _) (signIfConfigured_body ..) hexchange) hrun
    rw [hbody] at hrun₁
    exact proposeSession_ok hmatched hrun₁
  unfold establishAndCache SessionManager.insertSession at h
  rcases h.of_bind with ⟨session, v, tr₁, tr₂, _, hrest, _⟩ | ⟨error, hrun, _⟩
  · simp only [call_bind, pure_eq] at hrest
    obtain ⟨_, _, _, _, _, _, hrun, _⟩ := moved_ask hrest
    exact ⟨session, (moved_pure hrun).2.2⟩
  · obtain ⟨session, hbad⟩ := hestablished _ _ _ _ hrun
    cases hbad

theorem getOrEstablish_ok {r : Except String LdpSession}
    (h : LinkedRun (Works hmac srv handles others) False tasks others
      (getOrEstablish hmac config url) w tr w' r) : ∃ session, r = .ok session := by
  unfold getOrEstablish SessionManager.getSession at h
  simp only [call_bind] at h
  obtain ⟨u, cached, u', tr₁, _, _, hrun, _⟩ := moved_ask h
  cases cached with
  | none => exact establishAndCache_ok hmatched hrun
  | some session =>
      simp only [isActive] at hrun
      split at hrun
      · simp only [utcNow, call_bind, pure_eq, ask_bind, pure_bind_eq] at hrun
        obtain ⟨now, u₁, tr₂, _, hrun₁, _⟩ := ask_clock hrun
        split at hrun₁
        · exact ⟨session, (moved_pure hrun₁).2.2⟩
        · exact establishAndCache_ok hmatched hrun₁
      · exact establishAndCache_ok hmatched hrun

/-- A submission always returns a handle. -/
theorem invoke_ok {r : Except String TaskHandle}
    (h : LinkedRun (Works hmac srv handles others) False tasks others
      (LdpAdapter.invoke hmac config url task) w tr w' r) : ∃ handle, r = .ok handle := by
  unfold LdpAdapter.invoke at h
  rcases h.of_bind with ⟨session, u, _, tr₁, _, hrest, _⟩ | ⟨error, hrun, _⟩
  · unfold SessionManager.newV4 at hrest
    simp only [call_bind] at hrest
    obtain ⟨taskId, v, tr₂, _, _, hrun, _⟩ := ask_newV4 hrest
    obtain ⟨messageId, timestamp, v₁, tr₃, _, hrun₁, _⟩ := newEnvelope_run hrun
    obtain ⟨back, v₂, tr₄, _, hrun₂⟩ := sendSigned_ok (P := fun _ => True)
      (fun _ _ _ _ hexchange => by
        obtain ⟨back, hback⟩ :=
          submit_ok (hmatched.accepts _) (signIfConfigured_body ..) hexchange
        exact ⟨back, hback, trivial⟩) hrun₁
    apply hrun₂.ok_of_total
    cases task.contract with
    | none => exact fun _ => trivial
    | some contract => exact fun _ _ => trivial
  · obtain ⟨session, hbad⟩ := getOrEstablish_ok hmatched hrun
    cases hbad

variable (htasks : KeepContracts tasks) (hothers : ∀ d s t, others d s t → Apart d s t)
include hothers

/-- As long as the record is there, every query is answered with a status. -/
theorem status_ok (hw : Holds w task taskId (some output)) {r : Except String TaskStatus}
    (h : LinkedRun (Works hmac srv handles others) False tasks others
      (LdpAdapter.status parseRfc3339 hmac config url taskId) w tr w' r) :
    ∃ status, r = .ok status := by
  unfold LdpAdapter.status statusQuery at h
  obtain ⟨messageId, timestamp, v, tr₁, hv, hrun, _⟩ := newEnvelope_run h
  obtain ⟨v₁, p, answer, hv₁, hexchange, hrest⟩ := sendSigned_run hrun
  have hdrawn := hv₁.drawn (hv.drawn hw.drawn)
  have hstored : v₁.peer.tasks.lookup taskId =
      some (LdpServer.completedRecord taskId task.skill output) := by
    rw [apart_lookup hothers (hv.drawn hw.drawn) hv₁.peer, apart_lookup hothers hw.drawn hv.peer,
      hw.record, Option.map_some]
  have hbody : (signIfConfigured hmac config.signingSecret (LdpEnvelope.new messageId timestamp ""
      config.delegateId url (.taskUpdate taskId none (some "status_query")) .text)).body =
      .taskUpdate taskId none (some "status_query") := signIfConfigured_body ..
  obtain ⟨back, hback⟩ := query_ok (hmatched.accepts _) hothers hdrawn hbody hstored hexchange
  rcases hrest with ⟨error, herror, _⟩ | ⟨back', tr₂, hsame, _, hrun₁⟩
  · rw [hback] at herror
    cases herror
  · obtain ⟨record, hrecord, hresult⟩ :=
      (exchange_query hothers hdrawn hbody hexchange).2 back' hsame
    rw [hstored] at hrecord
    obtain ⟨produced, hbody'⟩ := hresult task.skill output (Option.some.inj hrecord).symm
    rw [hbody'] at hrun₁
    obtain ⟨_, _, _, _, hr⟩ := judge_run hrun₁
    exact ⟨_, hr⟩

omit hothers in
/-- A cancellation is always confirmed. -/
theorem cancelled_ok {r : Except String Unit}
    (h : LinkedRun (Works hmac srv handles others) False tasks others
      (LdpAdapter.cancel hmac config url taskId) w tr w' r) : r = .ok () := by
  unfold LdpAdapter.cancel at h
  obtain ⟨messageId, timestamp, v, tr₁, _, hrun, _⟩ := newEnvelope_run h
  obtain ⟨back, v₁, tr₂, _, hrun₁⟩ := sendSigned_ok (P := fun _ => True)
    (fun _ _ _ _ hexchange => by
      obtain ⟨back, hback⟩ := cancel_ok (hmatched.accepts _) (signIfConfigured_body ..) hexchange
      exact ⟨back, hback, trivial⟩) hrun
  exact (moved_pure hrun₁).2.2

include htasks

theorem followUps_ok {handle : TaskHandle} {calls : List FollowUp} {stored : Option Value}
    {r : Except String (List Answer)} (hw : Holds w task handle.taskId stored)
    (h : LinkedRun (Works hmac srv handles others) False tasks others
      (followUps parseRfc3339 hmac config handle calls) w tr w' r) :
    ∃ answers, r = .ok answers ∧ Delivered parseRfc3339 config srv task stored calls answers := by
  induction calls generalizing w tr w' stored r with
  | nil => exact ⟨[], (moved_pure h).2.2, .nil stored⟩
  | cons call calls ih =>
      unfold followUps at h
      cases call with
      | status =>
          simp only [FollowUp.program, bind_assoc, pure_eq, pure_bind_eq] at h
          obtain ⟨result, v, tr₁, tr₂, hcall, hrest⟩ := attempt_run h
          obtain ⟨hheld, hreport⟩ := status_run htasks hothers hw hcall
          obtain ⟨answers, hr, hdelivered⟩ := rest_ok hrest fun _ _ _ hrun => ih hheld hrun
          refine ⟨_, hr, ?_⟩
          cases stored with
          | none =>
              cases result with
              | ok status =>
                  obtain ⟨_, hnone, _⟩ := hreport status rfl
                  cases hnone
              | error error => exact .unknown error hdelivered
          | some output =>
              obtain ⟨status, hok⟩ := status_ok hmatched hothers hw hcall
              obtain ⟨_, hsome, hreports⟩ := hreport status hok
              rw [← Option.some.inj hsome] at hreports
              rw [hok]
              exact .reported hreports hdelivered
      | cancel =>
          simp only [FollowUp.program, bind_assoc, pure_eq, pure_bind_eq] at h
          obtain ⟨result, v, tr₁, tr₂, hcall, hrest⟩ := attempt_run h
          have hgone := (cancel_run htasks hothers hw hcall).2 (cancelled_ok hmatched hcall)
          obtain ⟨answers, hr, hdelivered⟩ := rest_ok hrest fun _ _ _ hrun => ih hgone hrun
          rw [cancelled_ok hmatched hcall] at hr
          exact ⟨_, hr, .cancelled hdelivered⟩

end

/-- Nothing is lost between parties that match: every submission, whatever others do
at the same time, ends with the handler's output at the server, and every later call
about the task has the outcome that this output and the cancellations before it call
for. -/
theorem task_answered (parseRfc3339 : String → Option ℤ) (hmac : Hmac)
    (config : LdpAdapterConfig) (srv : LdpServer) (hmatched : Matched config srv)
    (handles : Handler) (tasks : ClientState → ClientState → Prop)
    (others : List String → ServerState → ServerState → Prop) (htasks : KeepContracts tasks)
    (hothers : ∀ d s t, others d s t → Apart d s t) (url : String) (task : TaskRequest)
    (calls : List FollowUp) (w w' : Linked ServerState) (tr : Trace)
    (r : Except String (List Answer))
    (h : LinkedRun (Works hmac srv handles others) False tasks others
      (submitAndFollow parseRfc3339 hmac config url task calls) w tr w' r) :
    ∃ answers output, r = .ok answers ∧ handles task.skill task.input output ∧
      Delivered parseRfc3339 config srv task (some output) calls answers := by
  unfold submitAndFollow at h
  rcases h.of_bind with ⟨handle, v, tr₁, tr₂, hinvoke, hfollow, _⟩ | ⟨error, hinvoke, _⟩
  · obtain ⟨_, output, hhandled, hheld⟩ := invoke_run htasks hothers hinvoke
    obtain ⟨answers, hr, hdelivered⟩ := followUps_ok hmatched htasks hothers hheld hfollow
    exact ⟨answers, output, hr, hhandled, hdelivered⟩
  · obtain ⟨handle, hbad⟩ := invoke_ok hmatched hinvoke
    cases hbad

theorem task_answered_echo : ∃ w' tr answers,
    LinkedRun (Works submissionMac (LdpServer.echoServer "ldp:b" "B")
      (fun _ input output => output = .object [("echo", input)]) fun _ => Quiet) False Quiet
      (fun _ => Quiet) (submitAndFollow (fun _ => none) submissionMac Handshake.echoConfig "u"
        echoTask [.status, .cancel, .status]) Handshake.alone tr w' (.ok answers) ∧
    Delivered (fun _ => none) Handshake.echoConfig (LdpServer.echoServer "ldp:b" "B") echoTask
      (some (.object [("echo", .string "x")])) [.status, .cancel, .status] answers := by
  have hrun := exec_run (E := Interference Quiet fun _ => Quiet)
    (LinkedSessionManager.networked
      (LinkedServer.serve submissionMac (LdpServer.echoServer "ldp:b" "B")))
    (LinkedSessionManager.networked_meaning (works_echo _ _ fun _ => Quiet) False)
    (submitAndFollow (fun _ => none) submissionMac Handshake.echoConfig "u" echoTask
      [.status, .cancel, .status]) Handshake.alone
  obtain ⟨answers, output, hr, houtput, hdelivered⟩ := task_answered (fun _ => none) submissionMac
    Handshake.echoConfig (LdpServer.echoServer "ldp:b" "B") ⟨rfl, rfl⟩ _ Quiet (fun _ => Quiet)
    (fun _ _ h => h.elim) (fun _ _ _ h => h.elim) "u" echoTask [.status, .cancel, .status]
    Handshake.alone _ _ _ hrun
  rw [hr] at hrun
  rw [houtput] at hdelivered
  exact ⟨_, _, answers, hrun, hdelivered⟩

end Calls
end LdpProtocol.ReliableTasks
