import LdpProtocol.LinkedParties
import LdpProtocol.WireFormat
import LdpProtocol.ServerGate

/-!
# The Rust server as a peer

The server reads a document, handles the message among the messages of others,
and writes its response. The others may do whatever handling their messages does
to the maps; their session ids are not the ones the client has drawn.
-/
namespace LdpProtocol.LinkedServer
open InteractivePrograms InterferedRuns LinkedParties Relation
open InteractivePrograms.Program (call_bind pure_eq)
open JsonValues PayloadModes MessageTypes EnvelopeSigning ServerHandlers ServerGate

/-- The session a question writes to, if it writes to one. -/
def sessionTarget : ServerCall → Option String
  | .insertSession sessionId _ => some sessionId
  | .removeSession sessionId => some sessionId
  | _ => none

/-- A step of a message of someone else: it touches no session under the ids. -/
def Foreign (drawn : List String) (s t : ServerState) : Prop :=
  ∃ q a, ServerCall.Meaning q s a t ∧ ∀ id ∈ drawn, sessionTarget q ≠ some id

theorem Foreign.lookup {drawn : List String} {s t : ServerState} (h : Foreign drawn s t)
    {id : String} (hid : id ∈ drawn) : t.sessions.lookup id = s.sessions.lookup id := by
  obtain ⟨q, a, hm, htarget⟩ := h
  have ht := htarget id hid
  rw [hm.2]
  cases q with
  | insertSession sessionId session =>
      have hne : id ≠ sessionId := fun heq => ht (congrArg some heq.symm)
      exact AList.lookup_insert_ne hne
  | removeSession sessionId =>
      have hne : id ≠ sessionId := fun heq => ht (congrArg some heq.symm)
      exact AList.lookup_erase_ne hne
  | _ => rfl

/-- The server as a peer; a document that is no envelope is turned away. -/
inductive Serves (hmac : Hmac) (srv : LdpServer)
    (others : List String → ServerState → ServerState → Prop) (drawn : List String)
    (document : Value) (s : ServerState) : Except String Value → ServerState → Prop
  | handled {e : LdpEnvelope} {tr : List (Event ServerCall ServerCall.Answer)} {t : ServerState}
      {r : Except String LdpEnvelope} : LdpEnvelope.fromValue document = some e →
      Run ServerCall.Meaning (others drawn) (srv.handleMessage hmac e) s tr t r →
      Serves hmac srv others drawn document s (r.map LdpEnvelope.toValue) t
  | invalid (text : String) : LdpEnvelope.fromValue document = none →
      Serves hmac srv others drawn document s (.error text) s

/-- The server handling one document alone. -/
def serve (hmac : Hmac) (srv : LdpServer) (document : Value) (s : ServerState) :
    Except String Value × ServerState :=
  match LdpEnvelope.fromValue document with
  | some e =>
      let out := Program.exec ServerCall.echo (srv.handleMessage hmac e) s
      (out.2.2.map LdpEnvelope.toValue, out.2.1)
  | none => (.error "invalid envelope", s)

theorem serve_serves (hmac : Hmac) (srv : LdpServer)
    (others : List String → ServerState → ServerState → Prop) (drawn : List String)
    (document : Value) (s : ServerState) :
    Serves hmac srv others drawn document s (serve hmac srv document s).1
      (serve hmac srv document s).2 := by
  unfold serve
  cases he : LdpEnvelope.fromValue document with
  | none => exact .invalid _ he
  | some e => exact .handled he (exec_run ServerCall.echo ServerCall.echo_meaning _ _)

section Served
variable {hmac : Hmac} {srv : LdpServer} {E : ServerState → ServerState → Prop}
  {e : LdpEnvelope} {s t : ServerState} {tr : List (Event ServerCall ServerCall.Answer)}

theorem respond_among {body : LdpMessageBody} {mode : PayloadMode} {r : Except String LdpEnvelope}
    (h : Run ServerCall.Meaning E (srv.respond e body mode) s tr t r) :
    ReflTransGen E s t ∧
      ∃ messageId now, r = .ok (srv.response e messageId now body mode) := by
  refine ⟨(untouched_of_asksPassively (respond_asksPassively srv e body mode) h).others, ?_⟩
  unfold LdpServer.respond newV4 utcNowRfc3339 at h
  simp only [call_bind, pure_eq, run_ask, run_pure] at h
  obtain ⟨_, messageId, _, _, _, _, ⟨_, now, _, _, _, _, ⟨_, _, hr⟩, _⟩, _⟩ := h
  exact ⟨messageId, now, hr⟩

/-- A message that is answered with a response has passed the gate and been
dispatched; signing keeps the body. -/
theorem handleMessage_ok {response : LdpEnvelope}
    (h : Run ServerCall.Meaning E (srv.handleMessage hmac e) s tr t (.ok response)) :
    ∃ u tr₁ raw, Run ServerCall.Meaning E (srv.dispatch e) s tr₁ u (.ok raw) ∧
      ReflTransGen E u t ∧ response = signIfConfigured hmac srv.signingSecret raw := by
  unfold LdpServer.handleMessage at h
  split at h
  · obtain ⟨_, _, hr⟩ := run_throw.mp h
    cases hr
  · rcases h.of_bind with ⟨raw, u, tr₁, tr₂, hrun, hrest, _⟩ | ⟨error, _, hr⟩
    · obtain ⟨hu, _, hr⟩ := run_pure.mp hrest
      exact ⟨u, tr₁, raw, hrun, hu, Except.ok.inj hr⟩
    · cases hr

/-- Without a secret, a dispatch that cannot fail is answered. -/
theorem handleMessage_answered {r : Except String LdpEnvelope}
    (hsrv : srv.signingSecret = none) (htotal : (srv.dispatch e).Total)
    (h : Run ServerCall.Meaning E (srv.handleMessage hmac e) s tr t r) :
    ∃ response, r = .ok response := by
  apply h.ok_of_total
  unfold LdpServer.handleMessage LdpServer.signatureError
  rw [hsrv]
  exact htotal.bind fun _ => Program.total_pure _

theorem hello_among {delegateId : String} {modes : List PayloadMode}
    (hb : e.body = .hello delegateId modes) {r : Except String LdpEnvelope}
    (h : Run ServerCall.Meaning E (srv.handleMessage hmac e) s tr t r) :
    ReflTransGen E s t ∧ ∀ response, r = .ok response →
      response.body = .capabilityManifest srv.capabilities ∧ response.provenance = none := by
  have hpassive := dispatch_hello_asksPassively srv e hb
  refine ⟨(handleMessage_untouched hmac srv e h (.inl hpassive)).others, ?_⟩
  intro response hr
  subst hr
  obtain ⟨u, tr₁, raw, hrun, _, rfl⟩ := handleMessage_ok h
  unfold LdpServer.dispatch at hrun
  rw [hb] at hrun
  obtain ⟨_, messageId, now, hr⟩ := respond_among hrun
  cases hr
  exact ⟨signIfConfigured_body .., signIfConfigured_provenance ..⟩

/-- A proposal that is answered is accepted, and then the session was inserted
and only others have moved since, or rejected, and then only others have moved. -/
theorem propose_among {config : Value} (hb : e.body = .sessionPropose config)
    {response : LdpEnvelope}
    (h : Run ServerCall.Meaning E (srv.handleMessage hmac e) s tr t (.ok response)) :
    (response.body = .sessionAccept e.sessionId (srv.negotiated config).mode ∧
      response.provenance = none ∧
      ∃ (u : ServerState) (now : ℤ), ReflTransGen E
        { u with sessions := u.sessions.insert e.sessionId (srv.proposedSession e config now) } t) ∨
    (srv.identity.trustDomain.trusts (LdpServer.remoteDomain config) = false ∧
      (∃ reason, response.body =
        .sessionReject reason (some (LdpError.policy "TRUST_VIOLATION" reason))) ∧
      ReflTransGen E s t) := by
  obtain ⟨u, tr₁, raw, hrun, hu, rfl⟩ := handleMessage_ok h
  unfold LdpServer.dispatch at hrun
  rw [hb] at hrun
  rw [signIfConfigured_body, signIfConfigured_provenance]
  simp only [LdpServer.handleSessionPropose] at hrun
  split at hrun
  · unfold utcNow insertSession at hrun
    simp only [call_bind] at hrun
    obtain ⟨_, now, _, _, _, _, hrun₁, _⟩ := run_ask.mp hrun
    obtain ⟨s₁, _, s₂, _, _, ⟨_, hs₂⟩, hrun₂, _⟩ := run_ask.mp hrun₁
    obtain ⟨hmoved, messageId, stamp, hr⟩ := respond_among hrun₂
    cases hr
    rw [hs₂] at hmoved
    exact .inl ⟨rfl, rfl, s₁, now, hmoved.trans hu⟩
  · next hdistrust =>
    obtain ⟨hmoved, messageId, stamp, hr⟩ := respond_among hrun
    cases hr
    exact .inr ⟨Bool.eq_false_iff.mpr hdistrust, ⟨_, rfl⟩, hmoved.trans hu⟩

end Served
end LdpProtocol.LinkedServer
