import LdpProtocol.TaskHistory

/-!
# Terminal answers for one task

A TASK_RESULT and an acknowledged cancellation are the terminal answers the
server gives. A cancellation only drops the record: it stops no handler, says
CANCELLED whatever has happened, and leaves nothing that a query could repeat.
Terminal answers for a task agree as long as no cancellation of it gets past the
gate and the handler returns the same for each of its submissions; in every
other run they come to disagree.
-/
namespace LdpProtocol.TaskOutcomes
open InteractivePrograms InteractivePrograms.Program InterferedRuns ConcurrentCalls Relation
open JsonValues PayloadModes MessageTypes EnvelopeSigning ServerHandlers ServerRuns TaskHistory

/-- The server has answered the task with this result. -/
def ResultGiven (k : ServerConfig) (taskId : String) (output : Value) : Prop :=
  ∃ (i : ℕ) (e : LdpEnvelope) (response : LdpEnvelope) (provenance : Provenance),
    k.calls[i]? = some (e, done (.ok response)) ∧
    response.body = .taskResult taskId output provenance

def IsCancelled (taskId : String) (body : LdpMessageBody) : Prop :=
  ∃ error, body = .taskFailed taskId error ∧ error.code = "CANCELLED"

/-- The server has acknowledged a cancellation of the task. -/
def CancelGiven (k : ServerConfig) (taskId : String) : Prop :=
  ∃ (i : ℕ) (e : LdpEnvelope) (response : LdpEnvelope),
    k.calls[i]? = some (e, done (.ok response)) ∧ IsCancelled taskId response.body

/-- All terminal answers for the task agree, and a query that started after one
was given has repeated it. -/
structure OneOutcome (hmac : Hmac) (srv : LdpServer) (k : ServerConfig) (taskId : String) :
    Prop where
  exclusive : ∀ output, ResultGiven k taskId output → ¬ CancelGiven k taskId
  single : ∀ output output', ResultGiven k taskId output → ResultGiven k taskId output' →
    output = output'
  repeated : ∀ k₁, Serving hmac srv k₁ → Moves ServerCall.Meaning (srv.handleMessage hmac) k₁ k →
    ∀ (j : ℕ) (e : LdpEnvelope) (r : Except String LdpEnvelope) (progress : Option ℚ)
      (message : Option String), k₁.calls.length ≤ j → k.calls[j]? = some (e, done r) →
      e.body = .taskUpdate taskId progress message → srv.signatureError hmac e = none →
      (∀ output, ResultGiven k₁ taskId output → ∃ response provenance, r = .ok response ∧
        response.body = .taskResult taskId output provenance) ∧
      (CancelGiven k₁ taskId → ∃ response, r = .ok response ∧ IsCancelled taskId response.body)

/-- Call `i` is a submission of the task and its handler has returned `output`. -/
def Submitted (k : ServerConfig) (taskId : String) (i : ℕ) (output : Value) : Prop :=
  ∃ e p skill input contract, k.calls[i]? = some (e, p) ∧
    e.body = .taskSubmit taskId skill input contract ∧ output ∈ returned (traceOf i k.log)

/-- No cancellation of the task has got past the gate, and its handler runs have
all returned the same. -/
structure Undisturbed (hmac : Hmac) (srv : LdpServer) (k : ServerConfig) (taskId : String) :
    Prop where
  uncancelled : ∀ (i : ℕ) (e : LdpEnvelope) (p : ServerProgram LdpEnvelope),
    k.calls[i]? = some (e, p) → e.body = .taskCancel taskId → srv.signatureError hmac e ≠ none
  steady : ∀ (i j : ℕ) (output output' : Value), Submitted k taskId i output →
    Submitted k taskId j output' → output = output'

section Answers
variable {srv : LdpServer} {e response : LdpEnvelope} {hmac : Hmac} {tr : Trace} {taskId : String}

theorem respond_body {body : LdpMessageBody} {payloadMode : PayloadMode}
    (h : Along (srv.respond e body payloadMode) tr (done (.ok response))) :
    response.body = body := by
  obtain ⟨messageId, now, hr⟩ := respond_done h
  rw [Except.ok.inj hr]
  rfl

theorem handleSessionPropose_body {config : Value}
    (h : Along (srv.handleSessionPropose e config) tr (done (.ok response))) :
    (∃ mode, response.body = .sessionAccept e.sessionId mode) ∨
      ∃ reason error, response.body = .sessionReject reason error := by
  unfold LdpServer.handleSessionPropose utcNow insertSession at h
  split at h
  · simp only [call_bind, along_ask_done] at h
    obtain ⟨_, _, _, _, _, _, hrest⟩ := h
    exact .inl ⟨_, respond_body hrest⟩
  · exact .inr ⟨_, _, respond_body h⟩

/-- What the answers of each kind of message can be. -/
theorem dispatch_body (h : Along (srv.dispatch e) tr (done (.ok response))) :
    (∃ id skill input contract output provenance, e.body = .taskSubmit id skill input contract ∧
      returned tr = [output] ∧ (∃ record, ⟨.insertTask id record, ()⟩ ∈ tr) ∧
      response.body = .taskResult id output provenance) ∨
    (∃ id progress message record produced, e.body = .taskUpdate id progress message ∧
      response.body = statusBody srv id produced record) ∨
    (∃ id, e.body = .taskCancel id ∧
      response.body =
        .taskFailed id (LdpError.runtime "CANCELLED" "Task cancelled by client")) ∨
    ((∀ id output provenance, response.body ≠ .taskResult id output provenance) ∧
      ∀ id error, response.body ≠ .taskFailed id error) := by
  unfold LdpServer.dispatch at h
  cases hb : e.body with
  | taskSubmit id skill input contract =>
      rw [hb] at h
      obtain ⟨output, answer, provenance, hreturned, hinsert, hr, hbody⟩ :=
        handleTaskSubmit_done h
      rw [Except.ok.inj hr]
      exact .inl ⟨id, skill, input, contract, output, provenance, rfl, hreturned, ⟨_, hinsert⟩,
        hbody⟩
  | taskUpdate id progress message =>
      rw [hb] at h
      obtain ⟨found, rest, _, ⟨_, hr⟩ | ⟨record, produced, messageId, now, _, hr⟩⟩ :=
        handleTaskStatusQuery_done h
      · cases hr
      · rw [Except.ok.inj hr]
        exact .inr (.inl ⟨id, progress, message, record, produced, rfl, rfl⟩)
  | taskCancel id =>
      rw [hb] at h
      unfold LdpServer.handleTaskCancel removeTask at h
      simp only [call_bind, along_ask_done] at h
      obtain ⟨_, _, _, hrest⟩ := h
      exact .inr (.inr (.inl ⟨id, rfl, respond_body hrest⟩))
  | hello =>
      rw [hb] at h
      have hbody := respond_body h
      exact .inr (.inr (.inr ⟨by simp [hbody], by simp [hbody]⟩))
  | sessionClose =>
      rw [hb] at h
      unfold LdpServer.handleSessionClose removeSession at h
      simp only [call_bind, along_ask_done] at h
      obtain ⟨_, _, _, hrest⟩ := h
      have hbody := respond_body hrest
      exact .inr (.inr (.inr ⟨by simp [hbody], by simp [hbody]⟩))
  | sessionPropose config =>
      rw [hb] at h
      rcases handleSessionPropose_body h with ⟨mode, hbody⟩ | ⟨reason, error, hbody⟩
      · exact .inr (.inr (.inr ⟨by simp [hbody], by simp [hbody]⟩))
      · exact .inr (.inr (.inr ⟨by simp [hbody], by simp [hbody]⟩))
  | _ =>
      rw [hb] at h
      simp only [along_throw_done] at h
      cases h.2

/-- An answered call has passed the gate. -/
theorem handleMessage_answered (h : Along (srv.handleMessage hmac e) tr (done (.ok response))) :
    srv.signatureError hmac e = none ∧ ∃ answer, Along (srv.dispatch e) tr (done (.ok answer)) ∧
      response.body = answer.body := by
  have hsig : srv.signatureError hmac e = none := by
    rcases handleMessage_along h with ⟨error, _, _, hp⟩ | ⟨hsig, _⟩
    · cases hp
    · exact hsig
  obtain ⟨outcome, hpath, hr⟩ := handleMessage_done hsig h
  cases outcome with
  | error => cases hr
  | ok answer =>
      refine ⟨hsig, answer, hpath, ?_⟩
      rw [Except.ok.inj hr, signIfConfigured_body]

/-- A status answer is never CANCELLED. -/
theorem not_isCancelled_statusBody {id produced : String} {record : TaskRecord} :
    ¬ IsCancelled taskId (statusBody srv id produced record) := by
  intro h
  obtain ⟨error, hbody, hcode⟩ := h
  unfold statusBody at hbody
  split at hbody
  · cases hbody
  · cases hbody
    have hname : "TASK_FAILED" = "CANCELLED" := hcode
    exact absurd hname (by decide)
  · cases hbody

end Answers

section Runs
variable {hmac : Hmac} {srv : LdpServer} {k k₁ : ServerConfig} {taskId : String}

theorem ResultGiven.persist {output : Value} (h : ResultGiven k₁ taskId output)
    (hto : Moves ServerCall.Meaning (srv.handleMessage hmac) k₁ k) :
    ResultGiven k taskId output := by
  obtain ⟨i, e, response, provenance, hcall, hbody⟩ := h
  obtain ⟨p, hp, hdone⟩ := hto.persist.2 _ _ _ hcall
  rw [hdone _ rfl] at hp
  exact ⟨i, e, response, provenance, hp, hbody⟩

theorem CancelGiven.persist (h : CancelGiven k₁ taskId)
    (hto : Moves ServerCall.Meaning (srv.handleMessage hmac) k₁ k) : CancelGiven k taskId := by
  obtain ⟨i, e, response, hcall, hbody⟩ := h
  obtain ⟨p, hp, hdone⟩ := hto.persist.2 _ _ _ hcall
  rw [hdone _ rfl] at hp
  exact ⟨i, e, response, hp, hbody⟩

theorem Submitted.persist {i : ℕ} {output : Value} (h : Submitted k₁ taskId i output)
    (hto : Moves ServerCall.Meaning (srv.handleMessage hmac) k₁ k) :
    Submitted k taskId i output := by
  obtain ⟨e, p, skill, input, contract, hcall, hb, hreturned⟩ := h
  obtain ⟨p', hp', _⟩ := hto.persist.2 _ _ _ hcall
  obtain ⟨more, hmore⟩ := hto.persist.1
  refine ⟨e, p', skill, input, contract, hp', hb, ?_⟩
  rw [hmore, traceOf_append]
  unfold returned at hreturned ⊢
  rw [List.filterMap_append]
  exact List.mem_append_left _ hreturned

/-- A submission runs its handler once. -/
theorem Submitted.unique (h : Serving hmac srv k) {i : ℕ} {output output' : Value}
    (hs : Submitted k taskId i output) (hs' : Submitted k taskId i output') :
    output = output' := by
  obtain ⟨e, p, skill, input, contract, hcall, hb, hreturned⟩ := hs
  obtain ⟨_, _, _, _, _, _, _, hreturned'⟩ := hs'
  rcases handleMessage_along (h.follows.along _ _ _ hcall) with ⟨_, _, htr, _⟩ |
    ⟨_, p', hpath, _⟩
  · rw [htr] at hreturned
    cases hreturned
  · unfold LdpServer.dispatch at hpath
    rw [hb] at hpath
    rcases handleTaskSubmit_along hpath with htr | ⟨value, htr | ⟨rest, htr, hrest⟩⟩
    · rw [htr] at hreturned
      cases hreturned
    · rw [htr] at hreturned hreturned'
      have hone := List.mem_singleton.mp hreturned
      have hone' := List.mem_singleton.mp hreturned'
      exact hone.trans hone'.symm
    · have hnone : returned rest = [] := returned_of_passive hrest
      have hall : returned (traceOf i k.log) = [value] := by
        rw [htr]
        exact congrArg (List.cons value) hnone
      rw [hall] at hreturned hreturned'
      have hone := List.mem_singleton.mp hreturned
      have hone' := List.mem_singleton.mp hreturned'
      exact hone.trans hone'.symm

theorem Stored.submitted {log : List ServerEntry} {output : Value}
    (h : Stored k taskId log output) : ∃ i, Submitted k taskId i output := by
  obtain ⟨x, e, p, skill, input, contract, _, _, _, hcall, hb, hreturned⟩ := h
  exact ⟨x.caller, e, p, skill, input, contract, hcall, hb, by simp [hreturned]⟩

/-- A cancellation that was acknowledged has got past the gate. -/
theorem CancelGiven.origin (h : Serving hmac srv k) (hc : CancelGiven k taskId) :
    ∃ (i : ℕ) (e : LdpEnvelope) (p : ServerProgram LdpEnvelope), k.calls[i]? = some (e, p) ∧
      e.body = .taskCancel taskId ∧ srv.signatureError hmac e = none := by
  obtain ⟨i, e, response, hcall, hcancelled⟩ := hc
  obtain ⟨hsig, answer, hpath, hbody⟩ := handleMessage_answered (h.follows.along _ _ _ hcall)
  rw [hbody] at hcancelled
  rcases dispatch_body hpath with ⟨_, _, _, _, _, _, _, _, _, hanswer⟩ |
    ⟨_, _, _, _, _, _, hanswer⟩ | ⟨id, hb, hanswer⟩ | ⟨_, hnone⟩
  · obtain ⟨error, hfailed, _⟩ := hcancelled
    rw [hanswer] at hfailed
    cases hfailed
  · rw [hanswer] at hcancelled
    exact (not_isCancelled_statusBody hcancelled).elim
  · obtain ⟨error, hfailed, _⟩ := hcancelled
    rw [hanswer] at hfailed
    cases hfailed
    exact ⟨i, e, _, hcall, hb, hsig⟩
  · obtain ⟨error, hfailed, _⟩ := hcancelled
    exact (hnone _ _ hfailed).elim

/-- A result that was given is what the handler returned to some submission, and
that submission has been stored. -/
theorem ResultGiven.origin {output : Value} (h : Serving hmac srv k)
    (hr : ResultGiven k taskId output) :
    (∃ i, Submitted k taskId i output) ∧
      ∃ x ∈ k.log, ∃ record, x.event.1 = .insertTask taskId record := by
  obtain ⟨i, e, response, provenance, hcall, hresult⟩ := hr
  obtain ⟨hsig, answer, hpath, hbody⟩ := handleMessage_answered (h.follows.along _ _ _ hcall)
  rw [hbody] at hresult
  rcases dispatch_body hpath with ⟨id, skill, input, contract, output', _, hb, hreturned,
      ⟨record, hinsert⟩, hanswer⟩ | ⟨id, progress, message, _, _, hb, hanswer⟩ |
    ⟨_, _, hanswer⟩ | ⟨hnone, _⟩
  · rw [hanswer] at hresult
    cases hresult
    obtain ⟨x, hx, _, hevent⟩ := mem_traceOf.mp hinsert
    exact ⟨⟨i, e, _, skill, input, contract, hcall, hb, by simp [hreturned]⟩, x, hx, record,
      by rw [hevent]⟩
  · have hid : id = taskId := by
      rw [hresult] at hanswer
      unfold statusBody at hanswer
      split at hanswer <;> cases hanswer
      rfl
    subst hid
    obtain ⟨earlier, y, later, k₂, hlog, _, _, h₂, hlog₂, hto, hfound⟩ :=
      query_moment h hcall hsig hb
    rcases hfound with ⟨_, hmissing⟩ | ⟨record, produced, response', hlookup, hok, hstatus⟩
    · cases hmissing
    · rcases lookup_stored h h₂ hto id with ⟨output', skill, hstored, hl⟩ | ⟨_, hl⟩
      · rw [hl] at hlookup
        cases hlookup
        rw [← Except.ok.inj hok, hbody, hresult] at hstatus
        cases hstatus
        refine ⟨Stored.submitted hstored, ?_⟩
        obtain ⟨x, _, _, _, _, _, record, hlast, hinsert, _⟩ := hstored
        refine ⟨x, ?_, record, hinsert⟩
        rw [hlog, ← hlog₂]
        exact List.mem_append_left _ hlast.mem
      · rw [hl] at hlookup
        cases hlookup
  · rw [hanswer] at hresult
    cases hresult
  · exact (hnone _ _ _ hresult).elim

/-- Without a cancellation a stored task stays stored. -/
theorem stored_of_inserted (h : Serving hmac srv k) (hu : Undisturbed hmac srv k taskId)
    (h₁ : Serving hmac srv k₁) (hto : Moves ServerCall.Meaning (srv.handleMessage hmac) k₁ k)
    {x : ServerEntry} (hx : x ∈ k₁.log) {record : TaskRecord}
    (hinsert : x.event.1 = .insertTask taskId record) :
    ∃ output skill, Stored k taskId k₁.log output ∧ k₁.state.tasks.lookup taskId =
      some (LdpServer.completedRecord taskId skill output) := by
  have hwrites : Writes taskId x.event.1 := by
    rw [hinsert]
    rfl
  obtain ⟨z, hlast⟩ := exists_latest (P := fun x : ServerEntry => Writes taskId x.event.1) hx
    hwrites
  obtain ⟨more, hmore⟩ := hto.persist.1
  have hz : z ∈ k.log := by
    rw [hmore]
    exact List.mem_append_left _ hlast.mem
  have hzwrites : Writes taskId z.event.1 := by
    obtain ⟨_, _, _, hw, _⟩ := hlast
    exact hw
  obtain ⟨e, p, hcall, hsig, ⟨_, _, _, _, _, hrecord, _⟩ | ⟨hb, _⟩⟩ := write_origin h hz hzwrites
  · have hl := (lookup_iff h₁ taskId _).mpr ⟨z, hlast, hrecord⟩
    rcases lookup_stored h h₁ hto taskId with hstored | ⟨_, hnone⟩
    · exact hstored
    · rw [hl] at hnone
      cases hnone
  · exact (hu.uncancelled _ _ _ hcall hb hsig).elim

theorem one_outcome_of_undisturbed (h : Serving hmac srv k)
    (hu : Undisturbed hmac srv k taskId) : OneOutcome hmac srv k taskId := by
  have hnocancel : ¬ CancelGiven k taskId := by
    intro hc
    obtain ⟨i, e, p, hcall, hb, hsig⟩ := hc.origin h
    exact hu.uncancelled i e p hcall hb hsig
  have hsingle : ∀ output output', ResultGiven k taskId output → ResultGiven k taskId output' →
      output = output' := by
    intro output output' hr hr'
    obtain ⟨i, hi⟩ := (hr.origin h).1
    obtain ⟨j, hj⟩ := (hr'.origin h).1
    exact hu.steady i j output output' hi hj
  refine ⟨fun _ _ => hnocancel, hsingle, ?_⟩
  intro k₁ h₁ hto j e r progress message hj hcall hb hsig
  refine ⟨?_, fun hc => (hnocancel (hc.persist hto)).elim⟩
  intro output hgiven
  obtain ⟨x, hx, record, hinsert⟩ := (hgiven.origin h₁).2
  obtain ⟨earlier, y, later, k₂, hlog, hcaller, _, h₂, hlog₂, hto₂, hanswer⟩ :=
    query_moment h hcall hsig hb
  have hbefore : k₁.log ⊆ k₂.log := by
    rw [hlog₂]
    exact Moves.log_before h₁ hto hlog (by omega)
  obtain ⟨output', skill, hstored, hl⟩ := stored_of_inserted h hu h₂ hto₂ (hbefore hx) hinsert
  rcases hanswer with ⟨hmissing, _⟩ | ⟨found, produced, response, hfound, hr, hbody⟩
  · rw [hl] at hmissing
    cases hmissing
  · rw [hl] at hfound
    cases hfound
    obtain ⟨i, hi⟩ := (((hgiven.persist hto).origin h).1)
    obtain ⟨i', hi'⟩ := Stored.submitted hstored
    rw [hu.steady i i' output output' hi hi']
    exact ⟨response, srv.completedProvenance produced, hr, hbody⟩

theorem Undisturbed.earlier (hu : Undisturbed hmac srv k taskId)
    (hto : Moves ServerCall.Meaning (srv.handleMessage hmac) k₁ k) :
    Undisturbed hmac srv k₁ taskId := by
  constructor
  · intro i e p hcall
    obtain ⟨p', hp', _⟩ := hto.persist.2 _ _ _ hcall
    exact hu.uncancelled i e p' hp'
  · intro i j output output' hi hj
    exact hu.steady i j output output' (hi.persist hto) (hj.persist hto)

/-- Every call can come to its end. -/
theorem finish_call (hmac : Hmac) (srv : LdpServer) {i : ℕ} {e : LdpEnvelope}
    {p : ServerProgram LdpEnvelope} (hcall : k.calls[i]? = some (e, p)) : ∃ k' r,
      Moves ServerCall.Meaning (srv.handleMessage hmac) k k' ∧
      k'.calls[i]? = some (e, done r) := by
  have hlt := (List.getElem?_eq_some_iff.mp hcall).1
  obtain ⟨steps, hmoves, _⟩ := Moves.finish (srv.handleMessage hmac) hcall
    (exec_run ServerCall.echo ServerCall.echo_meaning p k.state)
  exact ⟨_, _, hmoves, List.getElem?_set_self hlt⟩

/-- A cancellation that has got past the gate is acknowledged when it finishes. -/
theorem cancelGiven_of_done (h : Serving hmac srv k) {i : ℕ} {e : LdpEnvelope}
    {r : Except String LdpEnvelope} (hcall : k.calls[i]? = some (e, done r))
    (hb : e.body = .taskCancel taskId) (hsig : srv.signatureError hmac e = none) :
    CancelGiven k taskId := by
  obtain ⟨outcome, hpath, hr⟩ := handleMessage_done hsig (h.follows.along _ _ _ hcall)
  unfold LdpServer.dispatch at hpath
  rw [hb] at hpath
  unfold LdpServer.handleTaskCancel removeTask at hpath
  simp only [call_bind, along_ask_done] at hpath
  obtain ⟨_, _, _, hrest⟩ := hpath
  obtain ⟨messageId, now, hout⟩ := respond_done hrest
  rw [hout] at hr
  subst hr
  refine ⟨i, e, _, hcall, LdpError.runtime "CANCELLED" "Task cancelled by client", ?_, rfl⟩
  rw [signIfConfigured_body]
  rfl

/-- A submission answers with what its handler returned when it finishes. -/
theorem Submitted.given (h : Serving hmac srv k) {i : ℕ} {output : Value}
    (hs : Submitted k taskId i output) : ∃ k',
      Moves ServerCall.Meaning (srv.handleMessage hmac) k k' ∧ ResultGiven k' taskId output := by
  obtain ⟨e, p, skill, input, contract, hcall, hb, hreturned⟩ := hs
  obtain ⟨k', r, hto, hdone⟩ := finish_call hmac srv hcall
  have hserving : Serving hmac srv k' := h.trans hto
  have hpath := hserving.follows.along _ _ _ hdone
  obtain ⟨more, hmore⟩ := hto.persist.1
  have hkept : output ∈ returned (traceOf i k'.log) := by
    rw [hmore, traceOf_append]
    unfold returned at hreturned ⊢
    rw [List.filterMap_append]
    exact List.mem_append_left _ hreturned
  have hsig : srv.signatureError hmac e = none := by
    rcases handleMessage_along hpath with ⟨_, _, htr, _⟩ | ⟨hsig, _⟩
    · rw [htr] at hkept
      cases hkept
    · exact hsig
  obtain ⟨outcome, hdispatch, hr⟩ := handleMessage_done hsig hpath
  unfold LdpServer.dispatch at hdispatch
  rw [hb] at hdispatch
  obtain ⟨output', response, provenance, hone, _, hout, hbody⟩ := handleTaskSubmit_done hdispatch
  rw [hone, List.mem_singleton] at hkept
  subst hkept
  rw [hout] at hr
  subst hr
  refine ⟨k', hto, i, e, _, provenance, hdone, ?_⟩
  rw [signIfConfigured_body]
  exact hbody

/-- A status query whose signature the server accepts. -/
def statusQuery (hmac : Hmac) (srv : LdpServer) (taskId : String) : LdpEnvelope :=
  signIfConfigured hmac srv.signingSecret
    (LdpEnvelope.new "q" "t0" "s1" "ldp:a" "ldp:b" (.taskUpdate taskId none none) .text)

theorem statusQuery_body : (statusQuery hmac srv taskId).body = .taskUpdate taskId none none :=
  signIfConfigured_body ..

theorem statusQuery_accepted : srv.signatureError hmac (statusQuery hmac srv taskId) = none := by
  unfold statusQuery
  cases hs : srv.signingSecret with
  | none =>
      unfold LdpServer.signatureError
      rw [hs]
  | some secret =>
      exact ServerGate.signatureError_of_valid hs (carriesValidSignature_applySignature ..)

/-- No query repeats a cancellation that has been acknowledged. -/
theorem CancelGiven.not_repeated (h : Serving hmac srv k) (hc : CancelGiven k taskId) : ∃ k',
    Moves ServerCall.Meaning (srv.handleMessage hmac) k k' ∧ ¬ OneOutcome hmac srv k' taskId := by
  have hrun := exec_run (E := Quiet) ServerCall.echo ServerCall.echo_meaning
    (srv.handleMessage hmac (statusQuery hmac srv taskId)) k.state
  obtain ⟨steps, hto, _⟩ := Moves.call k hrun
  have hserving : Serving hmac srv _ := h.trans hto
  refine ⟨_, hto, ?_⟩
  intro hone
  have hquery := (hone.repeated k h hto k.calls.length _ _ none none le_rfl
    List.getElem?_concat_length statusQuery_body statusQuery_accepted).2 hc
  obtain ⟨response, hr, hcancelled⟩ := hquery
  have hpath := hserving.follows.along _ _ _ List.getElem?_concat_length
  rw [hr] at hpath
  obtain ⟨_, answer, hdispatch, hbody⟩ := handleMessage_answered hpath
  unfold LdpServer.dispatch at hdispatch
  rw [statusQuery_body] at hdispatch
  obtain ⟨found, rest, _, ⟨_, hout⟩ | ⟨record, produced, messageId, now, _, hout⟩⟩ :=
    handleTaskStatusQuery_done hdispatch
  · cases hout
  · rw [hbody, Except.ok.inj hout] at hcancelled
    exact not_isCancelled_statusBody hcancelled

/-- A run that disturbs a task can go on to two answers that disagree. -/
theorem not_one_outcome_of_disturbed (h : Serving hmac srv k)
    (hu : ¬ Undisturbed hmac srv k taskId) : ∃ k',
      Moves ServerCall.Meaning (srv.handleMessage hmac) k k' ∧
      ¬ OneOutcome hmac srv k' taskId := by
  by_cases hcancel : ∃ (i : ℕ) (e : LdpEnvelope) (p : ServerProgram LdpEnvelope),
      k.calls[i]? = some (e, p) ∧ e.body = .taskCancel taskId ∧ srv.signatureError hmac e = none
  · obtain ⟨i, e, p, hcall, hb, hsig⟩ := hcancel
    obtain ⟨k₂, r, hto, hdone⟩ := finish_call hmac srv hcall
    have hgiven := cancelGiven_of_done (h.trans hto) hdone hb hsig
    obtain ⟨k₃, hto', hnot⟩ := hgiven.not_repeated (h.trans hto)
    exact ⟨k₃, hto.trans hto', hnot⟩
  · by_contra hnone
    apply hu
    constructor
    · intro i e p hcall hb hsig
      exact hcancel ⟨i, e, p, hcall, hb, hsig⟩
    · intro i j output output' hi hj
      obtain ⟨k₂, hto, hgiven⟩ := hi.given h
      obtain ⟨k₃, hto', hgiven'⟩ := (hj.persist hto).given (h.trans hto)
      by_contra hne
      apply hnone
      refine ⟨k₃, hto.trans hto', ?_⟩
      intro hone
      exact hne (hone.single output output' (hgiven.persist hto') hgiven')

/-- Along a run that does not disturb the task, its terminal answers agree at
every moment; after any other run the next answers can disagree. -/
theorem terminal_answers_agree (hmac : Hmac) (srv : LdpServer) (k : ServerConfig)
    (h : Serving hmac srv k) (taskId : String) :
    (Undisturbed hmac srv k taskId → ∀ k₁, Serving hmac srv k₁ →
      Moves ServerCall.Meaning (srv.handleMessage hmac) k₁ k → OneOutcome hmac srv k₁ taskId) ∧
    (¬ Undisturbed hmac srv k taskId → ∃ k',
      Moves ServerCall.Meaning (srv.handleMessage hmac) k k' ∧
      ¬ OneOutcome hmac srv k' taskId) :=
  ⟨fun hu _ h₁ hto => one_outcome_of_undisturbed h₁ (hu.earlier hto),
    not_one_outcome_of_disturbed h⟩

end Runs

def cancellation : LdpEnvelope :=
  LdpEnvelope.new "m2" "t0" "s1" "ldp:a" "ldp:b" (.taskCancel "t1") .text

/-- A completed task is cancelled. -/
theorem completed_then_cancelled : ¬ ∀ (hmac : Hmac) (srv : LdpServer) (k : ServerConfig)
    (taskId : String), Serving hmac srv k → OneOutcome hmac srv k taskId := by
  intro hall
  obtain ⟨log₁, h₁⟩ := serving_echo submissionMac (LdpServer.echoServer "ldp:b" "B") .refl
    echoSubmission
  obtain ⟨log₂, h₂⟩ := serving_echo _ _ h₁ cancellation
  have hone := hall _ _ _ "t1" h₂
  exact hone.exclusive _ ⟨0, echoSubmission, _, _, rfl, rfl⟩ ⟨1, cancellation, _, rfl, _, rfl, rfl⟩

/-- A query is answered with the output of a submission that is not answered yet. -/
theorem terminal_answers_agree_overlapped : (∃ output, ResultGiven overlapped "t1" output) ∧
    OneOutcome submissionMac (LdpServer.echoServer "ldp:b" "B") overlapped "t1" := by
  obtain ⟨result, answer, produced, _, hcalls, hresult, _⟩ := overlapped_calls
  have hgiven : ResultGiven overlapped "t1" (.object [("echo", .string "x")]) :=
    ⟨0, echoSubmission, result, produced, by rw [hcalls]; rfl, hresult⟩
  have hcall : ∀ (i : ℕ) (e : LdpEnvelope) (p : ServerProgram LdpEnvelope),
      overlapped.calls[i]? = some (e, p) → i = 0 ∧ e = echoSubmission ∨ e = echoQuery := by
    intro i e p hi
    rw [hcalls] at hi
    match i, hi with
    | 0, hi =>
        cases hi
        exact .inl ⟨rfl, rfl⟩
    | 1, hi =>
        cases hi
        exact .inr rfl
  refine ⟨⟨_, hgiven⟩,
    (terminal_answers_agree _ _ _ serving_overlapped "t1").1 ⟨?_, ?_⟩ _ serving_overlapped .refl⟩
  · intro i e p hi hb
    rcases hcall i e p hi with ⟨_, rfl⟩ | rfl <;> cases hb
  · intro i j output output' hi hj
    have hfirst : ∀ {i : ℕ} {output : Value}, Submitted overlapped "t1" i output → i = 0 := by
      rintro i output ⟨e, p, _, _, _, hi, hb, _⟩
      rcases hcall i e p hi with ⟨hzero, _⟩ | rfl
      · exact hzero
      · cases hb
    rw [hfirst hi] at hi
    rw [hfirst hj] at hj
    exact hi.unique serving_overlapped hj

end LdpProtocol.TaskOutcomes
