import LdpProtocol.SigningInput
import LdpProtocol.ServerHandlers

/-!
# The server's signature gate

No question that changes a map or runs the handler is asked before the gate has
passed, and no handler fails after such a question. The calls may be interleaved
with any others: what is shown of a call is about its own questions, and the
state moves otherwise only through other parties.
-/
namespace LdpProtocol.ServerGate
open InteractivePrograms InteractivePrograms.Program InterferedRuns Relation
open JsonValues PayloadModes MessageTypes EnvelopeSigning SigningInput ServerHandlers

/-- The call asked passive questions only, and the maps moved only through
other parties. -/
structure Untouched (E : ServerState → ServerState → Prop) (s : ServerState)
    (tr : List (Event ServerCall ServerCall.Answer)) (u : ServerState) : Prop where
  passive : ∀ ev ∈ tr, ev.1.Passive
  others : ReflTransGen E s u

theorem Untouched.eq {s u : ServerState} {tr : List (Event ServerCall ServerCall.Answer)}
    (h : Untouched Quiet s tr u) : u = s := quiet_reaches.mp h.others

/-- Every reachable question is passive, whatever the answers are. -/
abbrev AsksPassively {α : Type} (p : ServerProgram α) : Prop :=
  p.Uses (fun _ _ => True) ServerCall.Passive

variable {E : ServerState → ServerState → Prop} {s u : ServerState}
  {tr : List (Event ServerCall ServerCall.Answer)}

theorem untouched_of_asksPassively {α : Type} {p : ServerProgram α} {r : Except String α}
    (hp : AsksPassively p) (h : Run ServerCall.Meaning E p s tr u r) : Untouched E s tr u where
  passive := h.events (fun _ _ _ _ _ _ => trivial) hp
  others := by
    apply h.only_others _ hp
    intro q s a t hq hm
    rw [hm.2, ServerCall.effect_of_passive hq]

section Handlers
variable (srv : LdpServer) (envelope : LdpEnvelope)

theorem respond_asksPassively (body : LdpMessageBody) (payloadMode : PayloadMode) :
    AsksPassively (srv.respond envelope body payloadMode) := by
  simp [LdpServer.respond, newV4, utcNowRfc3339, ServerCall.Passive]

theorem respond_total (body : LdpMessageBody) (payloadMode : PayloadMode) :
    (srv.respond envelope body payloadMode).Total := by
  simp [LdpServer.respond, newV4, utcNowRfc3339]

theorem resultProvenance_asksPassively : AsksPassively srv.resultProvenance := by
  simp [LdpServer.resultProvenance, utcNowRfc3339, ServerCall.Passive]

theorem handleTaskStatusQuery_asksPassively (taskId : String) :
    AsksPassively (srv.handleTaskStatusQuery envelope taskId) := by
  unfold LdpServer.handleTaskStatusQuery getTask
  refine ⟨trivial, ?_⟩
  intro found _
  cases found with
  | none => exact uses_throw _
  | some record =>
      obtain ⟨_, _, state, _, _⟩ := record
      cases state with
      | completed =>
          exact (resultProvenance_asksPassively srv).bind fun _ => respond_asksPassively ..
      | _ => exact respond_asksPassively ..

theorem resultProvenance_total : srv.resultProvenance.Total :=
  (total_call _).bind fun _ => total_pure _

theorem handleSessionPropose_total (config : Value) :
    (srv.handleSessionPropose envelope config).Total := by
  unfold LdpServer.handleSessionPropose
  split
  · exact (total_call _).bind fun _ => (total_call _).bind fun _ => respond_total _ _ _ _
  · exact respond_total _ _ _ _

theorem handleTaskSubmit_total (taskId skill : String) (input : Value) :
    (srv.handleTaskSubmit envelope taskId skill input).Total := by
  unfold LdpServer.handleTaskSubmit
  apply (total_call _).bind
  intro output
  apply (total_call _).bind
  intro _
  exact (resultProvenance_total srv).bind fun _ => (total_call _).bind fun _ =>
    respond_total _ _ _ _

theorem handleTaskCancel_total (taskId : String) :
    (srv.handleTaskCancel envelope taskId).Total :=
  (total_call _).bind fun _ => respond_total _ _ _ _

theorem handleSessionClose_total : (srv.handleSessionClose envelope).Total :=
  (total_call _).bind fun _ => respond_total _ _ _ _

/-- A branch of the dispatch that changes something cannot fail. -/
theorem dispatch_passive_or_total :
    AsksPassively (srv.dispatch envelope) ∨ (srv.dispatch envelope).Total := by
  unfold LdpServer.dispatch
  cases envelope.body with
  | hello => exact .inl (respond_asksPassively ..)
  | taskUpdate => exact .inl (handleTaskStatusQuery_asksPassively ..)
  | sessionPropose => exact .inr (handleSessionPropose_total _ _ _)
  | taskSubmit => exact .inr (handleTaskSubmit_total _ _ _ _ _)
  | taskCancel => exact .inr (handleTaskCancel_total _ _ _)
  | sessionClose => exact .inr (handleSessionClose_total _ _)
  | _ => exact .inl (uses_throw _)

theorem dispatch_hello_asksPassively {delegateId : String} {supportedModes : List PayloadMode}
    (h : envelope.body = .hello delegateId supportedModes) :
    AsksPassively (srv.dispatch envelope) := by
  unfold LdpServer.dispatch
  rw [h]
  exact respond_asksPassively ..

end Handlers

section Questions
variable {hmac : Hmac} {srv : LdpServer} {e : LdpEnvelope}

/-- What a message may ask, by its body and the ids it names. -/
def Asks (srv : LdpServer) (e : LdpEnvelope) : ServerCall → Prop
  | .handler skill input => ∃ taskId contract, e.body = .taskSubmit taskId skill input contract
  | .insertSession id _ => id = e.sessionId ∧ ∃ config, e.body = .sessionPropose config ∧
      srv.identity.trustDomain.trusts (LdpServer.remoteDomain config) = true
  | .removeSession id => id = e.sessionId ∧ ∃ reason, e.body = .sessionClose reason
  | .getSession id => id = e.sessionId
  | .insertTask id _ => ∃ skill input contract, e.body = .taskSubmit id skill input contract
  | .removeTask id => e.body = .taskCancel id
  | .getTask id => ∃ progress message, e.body = .taskUpdate id progress message
  | .newV4 | .utcNow | .utcNowRfc3339 => True

theorem respond_asks (body : LdpMessageBody) (payloadMode : PayloadMode) :
    (srv.respond e body payloadMode).Uses (fun _ _ => True) (Asks srv e) :=
  ⟨trivial, fun _ _ => ⟨trivial, fun _ _ => trivial⟩⟩

theorem handleSessionPropose_asks {config : Value} (hb : e.body = .sessionPropose config) :
    (srv.handleSessionPropose e config).Uses (fun _ _ => True) (Asks srv e) := by
  unfold LdpServer.handleSessionPropose
  split
  · next ht => exact ⟨trivial, fun _ _ => ⟨⟨rfl, config, hb, ht⟩, fun _ _ => respond_asks ..⟩⟩
  · exact respond_asks ..

theorem handleTaskStatusQuery_asks {taskId : String}
    (hb : ∃ progress message, e.body = .taskUpdate taskId progress message) :
    (srv.handleTaskStatusQuery e taskId).Uses (fun _ _ => True) (Asks srv e) := by
  refine ⟨hb, ?_⟩
  intro found _
  cases found with
  | none => exact uses_throw _
  | some record =>
      obtain ⟨_, _, state, _, _⟩ := record
      cases state with
      | completed => exact ⟨trivial, fun _ _ => respond_asks ..⟩
      | _ => exact respond_asks ..

theorem dispatch_asks : (srv.dispatch e).Uses (fun _ _ => True) (Asks srv e) := by
  unfold LdpServer.dispatch
  cases hb : e.body with
  | hello => exact respond_asks ..
  | sessionPropose config => exact handleSessionPropose_asks hb
  | taskSubmit taskId skill input contract =>
      refine ⟨⟨taskId, contract, hb⟩, fun output _ => ⟨⟨skill, input, contract, hb⟩, ?_⟩⟩
      exact fun _ _ => ⟨trivial, fun _ _ => ⟨rfl, fun _ _ => respond_asks ..⟩⟩
  | taskUpdate taskId progress message => exact handleTaskStatusQuery_asks ⟨progress, message, hb⟩
  | taskCancel taskId => exact ⟨hb, fun _ _ => respond_asks ..⟩
  | sessionClose reason => exact ⟨⟨rfl, reason, hb⟩, fun _ _ => respond_asks ..⟩
  | _ => exact uses_throw _

/-- A message that the gate turns away asks nothing. -/
theorem handleMessage_asks (hmac : Hmac) (srv : LdpServer) (e : LdpEnvelope) :
    (srv.handleMessage hmac e).Uses (fun _ _ => True)
      fun q => srv.signatureError hmac e = none ∧ Asks srv e q := by
  unfold LdpServer.handleMessage
  split
  · exact uses_throw _
  · next hsig =>
      exact (dispatch_asks.bind fun _ => uses_pure _).mono fun _ hq => ⟨hsig, hq⟩

end Questions

/-- With a secret, the gate lets through valid signatures and unsigned HELLOs. -/
theorem signatureError_eq_none {hmac : Hmac} {srv : LdpServer} {secret : String}
    (hs : srv.signingSecret = some secret) {envelope : LdpEnvelope}
    (h : srv.signatureError hmac envelope = none) :
    CarriesValidSignature hmac secret envelope ∨
      ∃ delegateId supportedModes, envelope.body = .hello delegateId supportedModes := by
  unfold LdpServer.signatureError at h
  rw [hs] at h
  cases hsig : envelope.signature with
  | some sig =>
      simp only [hsig] at h
      split at h
      · next hv => exact .inl ⟨sig, hsig, hv⟩
      · cases h
  | none =>
      simp only [hsig] at h
      cases hbody : envelope.body with
      | hello delegateId supportedModes => exact .inr ⟨delegateId, supportedModes, rfl⟩
      | _ => simp [hbody] at h

theorem signatureError_of_valid {hmac : Hmac} {srv : LdpServer} {secret : String}
    (hs : srv.signingSecret = some secret) {envelope : LdpEnvelope}
    (h : CarriesValidSignature hmac secret envelope) :
    srv.signatureError hmac envelope = none := by
  obtain ⟨sig, hsig, hv⟩ := h
  simp [LdpServer.signatureError, hs, hsig, hv]

/-- A call that fails, or whose envelope is not authenticated, asks passive
questions only. -/
theorem handleMessage_untouched (hmac : Hmac) (srv : LdpServer) (envelope : LdpEnvelope)
    {r : Except String LdpEnvelope}
    (h : Run ServerCall.Meaning E (srv.handleMessage hmac envelope) s tr u r)
    (hc : AsksPassively (srv.dispatch envelope) ∨ srv.signatureError hmac envelope ≠ none) :
    Untouched E s tr u := by
  apply untouched_of_asksPassively _ h
  unfold LdpServer.handleMessage
  cases hsig : srv.signatureError hmac envelope with
  | some error => exact uses_throw _
  | none =>
      rw [hsig] at hc
      have hp := hc.resolve_right fun hne => hne rfl
      exact hp.bind fun _ => uses_pure _

theorem handleMessage_error_untouched (hmac : Hmac) (srv : LdpServer) (envelope : LdpEnvelope)
    {error : String}
    (h : Run ServerCall.Meaning E (srv.handleMessage hmac envelope) s tr u (.error error)) :
    Untouched E s tr u := by
  apply handleMessage_untouched hmac srv envelope h
  cases hsig : srv.signatureError hmac envelope with
  | some refusal => exact .inr (by simp)
  | none =>
      rcases dispatch_passive_or_total srv envelope with hp | ht
      · exact .inl hp
      · unfold LdpServer.handleMessage at h
        rw [hsig] at h
        rcases h.of_bind with ⟨a, _, _, _, _, hrest, _⟩ | ⟨e, hfail, _⟩
        · obtain ⟨_, _, hr⟩ := run_pure.mp hrest
          cases hr
        · obtain ⟨a, ha⟩ := hfail.ok_of_total ht
          cases ha

/-- The gate dominates every change, and no failure comes after a change. The
two parts speak of one call among any others; alone it leaves the state as it
was (`Untouched.eq`). -/
theorem handleMessage_gated (hmac : Hmac) (srv : LdpServer) (envelope : LdpEnvelope)
    (E : ServerState → ServerState → Prop) (s u : ServerState)
    (tr : List (Event ServerCall ServerCall.Answer)) (r : Except String LdpEnvelope)
    (h : Run ServerCall.Meaning E (srv.handleMessage hmac envelope) s tr u r) :
    (∀ secret, srv.signingSecret = some secret → ¬ Untouched E s tr u →
      CarriesValidSignature hmac secret envelope) ∧
    (∀ error, r = .error error → Untouched E s tr u) := by
  constructor
  · intro secret hs hchange
    by_contra hvalid
    apply hchange
    apply handleMessage_untouched hmac srv envelope h
    by_cases hsig : srv.signatureError hmac envelope = none
    · obtain hv | ⟨delegateId, supportedModes, hbody⟩ := signatureError_eq_none hs hsig
      · exact (hvalid hv).elim
      · exact .inl (dispatch_hello_asksPassively srv envelope hbody)
    · exact .inr hsig
  · intro error hr
    subst hr
    exact handleMessage_error_untouched hmac srv envelope h

/-- A signing echo server and a submission to it. -/
def signingServer : LdpServer :=
  { LdpServer.echoServer "ldp:b" "B" with signingSecret := some "secret" }

def submission (hmac : Hmac) (input : Value) (payloadMode : PayloadMode) : LdpEnvelope :=
  applySignature hmac (LdpEnvelope.new "m1" "t0" "s1" "ldp:a" "ldp:b"
    (.taskSubmit "t1" "echo" input none) payloadMode) "secret"

theorem submission_accepted (hmac : Hmac) (input : Value) (payloadMode : PayloadMode) :
    signingServer.signatureError hmac (submission hmac input payloadMode) = none :=
  signatureError_of_valid rfl (carriesValidSignature_applySignature ..)

theorem handleMessage_gated_submission :
    CarriesValidSignature submissionMac "secret" (submission submissionMac .null .text) ∧
      Untouched Quiet ServerState.empty [] ServerState.empty := by
  have hrun : Run ServerCall.Meaning Quiet (signingServer.handleMessage submissionMac
      (submission submissionMac .null .text)) ServerState.empty _ _ _ :=
    exec_run ServerCall.echo ServerCall.echo_meaning _ _
  have hunsigned : Run ServerCall.Meaning Quiet (signingServer.handleMessage submissionMac
      { submission submissionMac .null .text with signature := none }) ServerState.empty []
      ServerState.empty (.error "Message signature required but not provided") :=
    .throw _ _
  constructor
  · apply (handleMessage_gated submissionMac signingServer _ Quiet _ _ _ _ hrun).1 "secret" rfl
    intro huntouched
    have hhandler : (⟨.handler "echo" .null, Value.object [("echo", .null)]⟩ :
        Event ServerCall ServerCall.Answer) ∈
        (Program.exec ServerCall.echo (signingServer.handleMessage submissionMac
          (submission submissionMac .null .text)) ServerState.empty).1 := by
      unfold LdpServer.handleMessage
      rw [submission_accepted]
      exact List.mem_cons_self
    exact huntouched.passive _ hhandler
  · exact (handleMessage_gated submissionMac signingServer _ Quiet _ _ _ _ hunsigned).2 _ rfl

end LdpProtocol.ServerGate
