import LdpProtocol.RepeatedMessages

/-!
# The payload mode that a result states

A result is sent in the mode of the session it was submitted in, and its provenance
states a mode of its own: `Provenance::new` sets it and nothing sets it again. Both are
what the session negotiated only where that is semantic frames.
-/
namespace LdpProtocol.ModeProvenance
open InteractivePrograms InteractivePrograms.Program InterferedRuns ConcurrentCalls
open JsonValues PayloadModes MessageTypes EnvelopeSigning ServerHandlers ServerRuns TaskHistory
open RepeatedMessages

/-- The server and a text peer settle on semantic frames only if both want them. -/
theorem negotiated_semanticFrame_iff (srv : LdpServer) (config : Value) :
    (srv.negotiated config).mode = .semanticFrame ↔
      LdpServer.requestedMode config = .semanticFrame ∧
        .semanticFrame ∈ srv.identity.supportedPayloadModes := by
  unfold LdpServer.negotiated
  rw [negotiatePayloadMode_mode]
  generalize LdpServer.requestedMode config = requested
  constructor
  · intro h
    rcases agreedMode_cases PayloadMode.isImplemented [requested, .text]
      srv.identity.supportedPayloadModes with htext | ⟨_, hrequested, hsupported⟩
    · rw [h] at htext
      cases htext
    · rw [h] at hrequested hsupported
      simp only [List.mem_cons, List.not_mem_nil, or_false, reduceCtorEq] at hrequested
      exact ⟨hrequested.symm, hsupported⟩
  · intro h
    have himplemented : PayloadMode.semanticFrame.isImplemented = true := by decide
    rw [h.1, agreedMode, List.find?_cons_of_pos (by simp [himplemented, h.2])]
    rfl

section Paths
variable {srv : LdpServer} {e : LdpEnvelope} {tr : Trace} {p : ServerProgram LdpEnvelope}
  {r : Except String LdpEnvelope}

/-- Questions about ids and times only. -/
def Stamps : ServerCall → Prop
  | .newV4 | .utcNowRfc3339 => True
  | _ => False

theorem respond_stamps (body : LdpMessageBody) (payloadMode : PayloadMode) :
    (srv.respond e body payloadMode).Uses (fun _ _ => True) Stamps :=
  ⟨trivial, fun _ _ => ⟨trivial, fun _ _ => trivial⟩⟩

/-- A session is written by a proposal that is answered with the mode of it. -/
theorem handleSessionPropose_inserts {config : Value} {sessionId : String} {session : LdpSession}
    (h : Along (srv.handleSessionPropose e config) tr p)
    (hmem : ⟨.insertSession sessionId session, ()⟩ ∈ tr) :
    sessionId = e.sessionId ∧ (∃ opened, session = srv.proposedSession e config opened) ∧
      ∀ outcome, p = done outcome → ∃ response, outcome = .ok response ∧
        response.body = .sessionAccept sessionId session.payload.mode := by
  have hnone : ∀ {body : LdpMessageBody} {payloadMode : PayloadMode} {rest : Trace},
      Along (srv.respond e body payloadMode) rest p →
      ⟨.insertSession sessionId session, ()⟩ ∉ rest := by
    intro body payloadMode rest hrest hin
    exact hrest.uses (respond_stamps body payloadMode) _ hin
  unfold LdpServer.handleSessionPropose utcNow insertSession at h
  split at h
  · simp only [call_bind] at h
    rcases along_ask.mp h with ⟨htr, _⟩ | ⟨opened, tr₁, htr, h₁⟩
    · rw [htr] at hmem
      cases hmem
    · rcases along_ask.mp h₁ with ⟨htr₁, _⟩ | ⟨_, rest, htr₁, h₂⟩
      · rw [htr, htr₁, List.mem_singleton] at hmem
        cases hmem
      · rw [htr, htr₁] at hmem
        rcases List.mem_cons.mp hmem with hmem | hmem
        · cases hmem
        · rcases List.mem_cons.mp hmem with hmem | hmem
          · cases hmem
            refine ⟨rfl, ⟨opened, rfl⟩, ?_⟩
            intro outcome hp
            rw [hp] at h₂
            obtain ⟨messageId, now, hr⟩ := respond_done h₂
            exact ⟨_, hr, rfl⟩
          · exact (hnone h₂ hmem).elim
  · exact (hnone h hmem).elim

/-- A finished submission is answered in the mode of the session it found, with the
mode of a new provenance in the result. -/
theorem handleTaskSubmit_modes {taskId skill : String} {input : Value}
    (h : Along (srv.handleTaskSubmit e taskId skill input) tr (done r)) :
    ∃ response output produced, r = .ok response ∧
      response.body = .taskResult taskId output (srv.completedProvenance produced) ∧
      ∀ found, ⟨.getSession e.sessionId, found⟩ ∈ tr →
        response.payloadMode = LdpServer.sessionMode found := by
  obtain ⟨output, produced, session, rest, htr, hrest⟩ := handleTaskSubmit_path h
  obtain ⟨messageId, now, hr⟩ := respond_done hrest
  refine ⟨_, output, produced, hr, rfl, ?_⟩
  intro found hmem
  have hstamps := hrest.uses (respond_stamps ..)
  rw [htr] at hmem
  simp only [List.mem_cons, Sigma.mk.injEq, reduceCtorEq, false_and, false_or] at hmem
  rcases hmem with ⟨_, hfound⟩ | hmem
  · rw [eq_of_heq hfound]
    rfl
  · exact (hstamps _ hmem).elim

/-- A result in an answer to a query states the mode of a new provenance. -/
theorem statusBody_payloadModeUsed {taskId produced id : String} {record : TaskRecord}
    {output : Value} {provenance : Provenance}
    (h : statusBody srv taskId produced record = .taskResult id output provenance) :
    provenance.payloadModeUsed = .semanticFrame := by
  unfold statusBody at h
  split at h
  · cases h
    rfl
  · cases h
  · cases h

end Paths

/-- The session was opened by a proposal with this config, which is answered with the
mode of the session. -/
def OpenedBy (srv : LdpServer) (k : ServerConfig) (sessionId : String) (session : LdpSession)
    (config : Value) : Prop :=
  ∃ (i : ℕ) (p : LdpEnvelope) (q : ServerProgram LdpEnvelope) (opened : ℤ),
    k.calls[i]? = some (p, q) ∧ p.sessionId = sessionId ∧ p.body = .sessionPropose config ∧
    ⟨.insertSession sessionId session, ()⟩ ∈ traceOf i k.log ∧
    session = srv.proposedSession p config opened ∧
    ∀ outcome, q = done outcome → ∃ accept, outcome = .ok accept ∧
      accept.body = .sessionAccept sessionId session.payload.mode

/-- The result states the mode of the session, is sent in it, and every result that a
query for the task is answered with states it too. -/
def Truthful (k : ServerConfig) (taskId : String) (session : LdpSession)
    (response : LdpEnvelope) : Prop :=
  ∃ output provenance, response.body = .taskResult taskId output provenance ∧
    provenance.payloadModeUsed = session.payload.mode ∧
    provenance.payloadModeUsed = response.payloadMode ∧
    ∀ (i : ℕ) (query answer : LdpEnvelope) (progress : Option ℚ) (message : Option String)
      (id : String) (output' : Value) (provenance' : Provenance),
      k.calls[i]? = some (query, done (.ok answer)) →
      query.body = .taskUpdate taskId progress message →
      answer.body = .taskResult id output' provenance' →
      provenance'.payloadModeUsed = provenance.payloadModeUsed

section Runs
variable {hmac : Hmac} {srv : LdpServer} {k : ServerConfig}

/-- The gate has let through what was answered. -/
theorem signatureError_of_answered (h : Serving hmac srv k) {j : ℕ} {e response : LdpEnvelope}
    (hcall : k.calls[j]? = some (e, done (.ok response))) : srv.signatureError hmac e = none := by
  rcases handleMessage_along (h.follows.along _ _ _ hcall) with ⟨error, _, _, hthrow⟩ | ⟨hsig, _⟩
  · cases hthrow
  · exact hsig

/-- Every session that was found was opened by a proposal. -/
theorem openedBy_of_found (h : Serving hmac srv k) {j : ℕ} {sessionId : String}
    {session : LdpSession} (hfound : ⟨.getSession sessionId, some session⟩ ∈ traceOf j k.log) :
    ∃ config, OpenedBy srv k sessionId session config := by
  obtain ⟨y, hy, _, hevent⟩ := mem_traceOf.mp hfound
  obtain ⟨earlier, later, hlog⟩ := List.append_of_mem hy
  obtain ⟨k₁, h₁, _, hlog₁, hstate⟩ := h.split hlog
  obtain ⟨_, hmeant⟩ := h.meant y hy
  rw [hevent, ← hstate] at hmeant
  have hheld : some session = k₁.state.sessions.lookup sessionId := hmeant.1
  obtain ⟨z, hz, hinsert⟩ := inserted_of_lookup h₁ hheld.symm
  have hzlog : z ∈ k.log := by
    rw [hlog, ← hlog₁]
    exact List.mem_append_left _ hz.mem
  have hmem : ⟨.insertSession sessionId session, ()⟩ ∈ traceOf z.caller k.log := by
    refine mem_traceOf.mpr ⟨z, hzlog, rfl, ?_⟩
    obtain ⟨_, _, q, _⟩ := z
    cases hinsert
    rfl
  obtain ⟨⟨p, q⟩, hcall⟩ : ∃ call, k.calls[z.caller]? = some call :=
    ⟨_, List.getElem?_eq_getElem (h.follows.caller z hzlog)⟩
  rcases handleMessage_along (h.follows.along _ _ _ hcall) with ⟨_, _, htr, _⟩ |
    ⟨hsig, q', hpath, hq⟩
  · rw [htr] at hmem
    cases hmem
  · obtain ⟨hid, config, hb, _⟩ := hpath.uses ServerGate.dispatch_asks _ hmem
    unfold LdpServer.dispatch at hpath
    rw [hb] at hpath
    obtain ⟨_, ⟨opened, hopened⟩, haccepted⟩ := handleSessionPropose_inserts hpath hmem
    refine ⟨config, z.caller, p, q, opened, hcall, hid.symm, hb, hmem, hopened, ?_⟩
    intro outcome hdone
    rw [hdone] at hcall
    obtain ⟨outcome', hpath', hout⟩ := handleMessage_done hsig (h.follows.along _ _ _ hcall)
    unfold LdpServer.dispatch at hpath'
    rw [hb] at hpath'
    obtain ⟨_, _, haccepted'⟩ := handleSessionPropose_inserts hpath' hmem
    obtain ⟨accept, hok, hbody⟩ := haccepted' outcome' rfl
    rw [hout, hok]
    exact ⟨_, rfl, by rw [signIfConfigured_body, hbody]⟩

/-- Every result that a query is answered with states semantic frames. -/
theorem query_payloadModeUsed (h : Serving hmac srv k) {i : ℕ} {query answer : LdpEnvelope}
    {progress : Option ℚ} {message : Option String} {taskId id : String} {output : Value}
    {provenance : Provenance} (hcall : k.calls[i]? = some (query, done (.ok answer)))
    (hb : query.body = .taskUpdate taskId progress message)
    (hresult : answer.body = .taskResult id output provenance) :
    provenance.payloadModeUsed = .semanticFrame := by
  obtain ⟨_, _, _, _, _, _, _, _, _, _, hanswer⟩ :=
    query_moment h hcall (signatureError_of_answered h hcall) hb
  rcases hanswer with ⟨_, herror⟩ | ⟨record, produced, response, _, hok, hbody⟩
  · cases herror
  · cases hok
    rw [hbody] at hresult
    exact statusBody_payloadModeUsed hresult

/-- A submission that found a session is answered in its mode, and truthfully exactly
if that is semantic frames. -/
theorem submit_modes (h : Serving hmac srv k) {j : ℕ} {e response : LdpEnvelope}
    (hcall : k.calls[j]? = some (e, done (.ok response))) {taskId skill : String} {input : Value}
    {contract : Option DelegationContract} (hb : e.body = .taskSubmit taskId skill input contract)
    {session : LdpSession}
    (hfound : ⟨.getSession e.sessionId, some session⟩ ∈ traceOf j k.log) :
    response.payloadMode = session.payload.mode ∧
      (Truthful k taskId session response ↔ session.payload.mode = .semanticFrame) := by
  obtain ⟨outcome, hpath, hr⟩ := handleMessage_done (signatureError_of_answered h hcall)
    (h.follows.along _ _ _ hcall)
  unfold LdpServer.dispatch at hpath
  rw [hb] at hpath
  obtain ⟨answer, output, produced, hok, hbody, hmode⟩ := handleTaskSubmit_modes hpath
  rw [hok] at hr
  have hresponse : response = signIfConfigured hmac srv.signingSecret answer := Except.ok.inj hr
  have hsent : response.payloadMode = session.payload.mode := by
    rw [hresponse, signIfConfigured_payloadMode, hmode _ hfound]
    rfl
  have hstates : response.body = .taskResult taskId output (srv.completedProvenance produced) := by
    rw [hresponse, signIfConfigured_body, hbody]
  refine ⟨hsent, ?_⟩
  constructor
  · intro htruthful
    obtain ⟨output', provenance, hresult, hsame, _⟩ := htruthful
    rw [hstates] at hresult
    cases hresult
    exact hsame.symm
  · intro hframe
    refine ⟨output, _, hstates, hframe.symm, ?_, ?_⟩
    · rw [hsent, hframe]
      rfl
    · intro i query answer' progress message id output' provenance' hquery hqb hresult
      exact query_payloadModeUsed h hquery hqb hresult

/-- In every run a task submitted in a session is answered in the mode that the
session's proposal was accepted with, and the mode which its results state is that
one exactly if the proposal asks for semantic frames, as it does by default, and the
server supports them. -/
theorem truthful_iff (hmac : Hmac) (srv : LdpServer) (k : ServerConfig) (h : Serving hmac srv k)
    (j : ℕ) (e response : LdpEnvelope) (hcall : k.calls[j]? = some (e, done (.ok response)))
    (taskId skill : String) (input : Value) (contract : Option DelegationContract)
    (hb : e.body = .taskSubmit taskId skill input contract) (session : LdpSession)
    (hfound : ⟨.getSession e.sessionId, some session⟩ ∈ traceOf j k.log) :
    ∃ config, OpenedBy srv k e.sessionId session config ∧
      response.payloadMode = session.payload.mode ∧
      (Truthful k taskId session response ↔
        LdpServer.requestedMode config = .semanticFrame ∧
          .semanticFrame ∈ srv.identity.supportedPayloadModes) := by
  obtain ⟨config, hopened⟩ := openedBy_of_found h hfound
  obtain ⟨hsent, htruthful⟩ := submit_modes h hcall hb hfound
  have hnegotiated : session.payload = srv.negotiated config := by
    obtain ⟨_, _, _, _, _, _, _, _, hproposed, _⟩ := hopened
    rw [hproposed]
    rfl
  refine ⟨config, hopened, hsent, ?_⟩
  rw [htruthful, hnegotiated]
  exact negotiated_semanticFrame_iff srv config

end Runs

/-- A proposal to the echo server that asks for a mode. -/
def proposalFor (mode : PayloadMode) : LdpEnvelope :=
  LdpEnvelope.new "m0" "t0" "s1" "ldp:a" "ldp:b" (.sessionPropose (.object
    [("payload_mode", mode.toValue), ("trust_domain", .string "test-domain")])) .text

/-- The echo server is sent the proposal and then a task in the session. -/
theorem submitted_after (mode : PayloadMode) : ∃ (k : ServerConfig) (response : LdpEnvelope)
    (session : LdpSession), Serving submissionMac (LdpServer.echoServer "ldp:b" "B") k ∧
      k.calls[1]? = some (echoSubmission, done (.ok response)) ∧
      ⟨.getSession echoSubmission.sessionId, some session⟩ ∈ traceOf 1 k.log ∧
      session.payload = (LdpServer.echoServer "ldp:b" "B").negotiated (.object
        [("payload_mode", mode.toValue), ("trust_domain", .string "test-domain")]) := by
  obtain ⟨log₁, h₁⟩ := serving_echo submissionMac (LdpServer.echoServer "ldp:b" "B") .refl
    (proposalFor mode)
  obtain ⟨log₂, h₂, htrace⟩ := serving_echo_traced submissionMac
    (LdpServer.echoServer "ldp:b" "B") h₁ echoSubmission
  refine ⟨_, _, (LdpServer.echoServer "ldp:b" "B").proposedSession (proposalFor mode) (.object
    [("payload_mode", mode.toValue), ("trust_domain", .string "test-domain")]) 0, h₂, rfl, ?_, rfl⟩
  rw [show traceOf 1 log₂ = _ from htrace]
  exact .tail _ (.tail _ (.tail _ (.head _)))

/-- A task in a text session is answered in text with a result that states semantic
frames. -/
theorem text_session_misreported : ¬ ∀ (hmac : Hmac) (srv : LdpServer) (k : ServerConfig),
    Serving hmac srv k → ∀ (j : ℕ) (e response : LdpEnvelope) (taskId skill : String)
      (input : Value) (contract : Option DelegationContract) (session : LdpSession),
      k.calls[j]? = some (e, done (.ok response)) →
      e.body = .taskSubmit taskId skill input contract →
      ⟨.getSession e.sessionId, some session⟩ ∈ traceOf j k.log →
      Truthful k taskId session response := by
  intro hall
  obtain ⟨k, response, session, h, hcall, hfound, hpayload⟩ := submitted_after .text
  have htruthful := hall _ _ k h 1 echoSubmission response _ _ _ _ session hcall rfl hfound
  have hframe := (submit_modes h hcall rfl hfound).2.mp htruthful
  rw [hpayload] at hframe
  exact absurd hframe (by decide)

/-- A task in a session of semantic frames. -/
theorem truthful_iff_semanticFrame : ∃ (k : ServerConfig) (response : LdpEnvelope)
    (session : LdpSession) (config : Value),
    OpenedBy (LdpServer.echoServer "ldp:b" "B") k "s1" session config ∧
      response.payloadMode = session.payload.mode ∧
      (Truthful k "t1" session response ↔ LdpServer.requestedMode config = .semanticFrame ∧
        .semanticFrame ∈
          (LdpServer.echoServer "ldp:b" "B").identity.supportedPayloadModes) := by
  obtain ⟨k, response, session, h, hcall, hfound, _⟩ := submitted_after .semanticFrame
  exact ⟨k, response, session, truthful_iff submissionMac (LdpServer.echoServer "ldp:b" "B") k h 1
    echoSubmission response hcall "t1" "echo" (.string "x") none rfl session hfound⟩

end LdpProtocol.ModeProvenance
