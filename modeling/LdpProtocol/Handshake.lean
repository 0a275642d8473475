import LdpProtocol.LinkedSessionManager
import LdpProtocol.LinkedServer

/-!
# The handshake between the two Rust parties

The mode is negotiated twice: by the client over its preferences and the modes
of the manifest, and by the server over the requested mode and text. Both come
to the same mode. The client keeps its own fallback chain and the server builds
another one from what it was offered.
-/
namespace LdpProtocol.Handshake
open InteractivePrograms InterferedRuns LinkedParties Relation
open JsonValues PayloadModes MessageTypes EnvelopeSigning SessionManager ServerHandlers
open LinkedServer LinkedSessionManager

section
variable {hmac : Hmac} {srv : LdpServer} {config : LdpAdapterConfig} {url : String}
  {faulty : Prop} {tasks : ClientState → ClientState → Prop}
  {others : List String → ServerState → ServerState → Prop}

/-- A message without errors in its body is what the server handles. -/
theorem served {drawn : List String} {e : LdpEnvelope} {s t : ServerState}
    {answer : Except String Value} (he : e.body.errors = [])
    (h : Serves hmac srv others drawn e.toValue s answer t) :
    ∃ tr r, Run ServerCall.Meaning (others drawn) (srv.handleMessage hmac e) s tr t r ∧
      answer = r.map LdpEnvelope.toValue := by
  cases h with
  | @handled e' tr _ r hread hrun =>
      rw [LdpEnvelope.fromValue_toValue e (by simp [he])] at hread
      cases hread
      exact ⟨tr, r, hrun, rfl⟩
  | invalid _ hread =>
      rw [LdpEnvelope.fromValue_toValue e (by simp [he])] at hread
      cases hread

/-- A response is read as the server wrote it. -/
theorem answered {drawn : List String} {e back : LdpEnvelope} {s t : ServerState}
    (he : e.body.errors = [])
    (h : Exchange (Serves hmac srv others) faulty drawn e s (.ok back) t) :
    ∃ tr response, Run ServerCall.Meaning (others drawn) (srv.handleMessage hmac e) s tr t
      (.ok response) ∧ LdpEnvelope.fromValue response.toValue = some back := by
  cases h with
  | answered hserved hread =>
      obtain ⟨tr, r, hrun, hanswer⟩ := served he hserved
      cases r with
      | error error => cases hanswer
      | ok response =>
          cases hanswer
          exact ⟨tr, response, hrun, hread⟩

theorem read_back {response back : LdpEnvelope}
    (hread : LdpEnvelope.fromValue response.toValue = some back)
    (h : ∀ err ∈ response.body.errors, err.partialOutput ≠ some .null) : back = response := by
  rw [LdpEnvelope.fromValue_toValue response h] at hread
  exact (Option.some.inj hread).symm

theorem exchange_hello {drawn : List String} {messageId timestamp : String} {s t : ServerState}
    {answer : Except String LdpEnvelope}
    (h : Exchange (Serves hmac srv others) faulty drawn
      (helloMessage hmac config url messageId timestamp) s answer t) :
    ReflTransGen (others drawn) s t ∧
      ∀ back, answer = .ok back → back.body = .capabilityManifest srv.capabilities := by
  have hbody : (helloMessage hmac config url messageId timestamp).body =
      .hello config.delegateId config.session.preferredPayloadModes := signIfConfigured_body ..
  have herrors : (helloMessage hmac config url messageId timestamp).body.errors = [] := by
    rw [hbody]
    rfl
  have hothers : ReflTransGen (others drawn) s t := by
    refine h.relates (fun _ => .refl) ?_
    intro s answer t hserved
    obtain ⟨tr, r, hrun, _⟩ := served herrors hserved
    exact (hello_among hbody hrun).1
  refine ⟨hothers, ?_⟩
  intro back hanswer
  subst hanswer
  obtain ⟨tr, response, hrun, hread⟩ := answered herrors h
  have hresponse := ((hello_among hbody hrun).2 response rfl).1
  rw [read_back hread (by simp [hresponse, LdpMessageBody.errors])]
  exact hresponse

theorem exchange_propose {drawn : List String}
    {messageId timestamp sessionId remoteDelegateId : String} {mode : PayloadMode}
    {s t : ServerState} {back : LdpEnvelope}
    (h : Exchange (Serves hmac srv others) faulty drawn
      (proposeMessage hmac config messageId timestamp sessionId remoteDelegateId mode) s
      (.ok back) t) :
    (back.body = .sessionAccept sessionId (srv.negotiated (proposeConfig config mode)).mode ∧
      ∃ (u : ServerState) (session : LdpSession),
        session.payload = srv.negotiated (proposeConfig config mode) ∧
        ReflTransGen (others drawn)
          { u with sessions := u.sessions.insert sessionId session } t) ∨
    ((∃ reason error, back.body = .sessionReject reason error) ∧
      ReflTransGen (others drawn) s t) := by
  let e := proposeMessage hmac config messageId timestamp sessionId remoteDelegateId mode
  have hbody : e.body = .sessionPropose (proposeConfig config mode) := signIfConfigured_body ..
  have hid : e.sessionId = sessionId := signIfConfigured_sessionId ..
  have herrors : e.body.errors = [] := by
    rw [hbody]
    rfl
  obtain ⟨tr, response, hrun, hread⟩ := answered herrors h
  rcases propose_among hbody hrun with
    ⟨haccept, _, u, now, hmoved⟩ | ⟨_, ⟨reason, hreject⟩, hmoved⟩
  · rw [hid] at haccept hmoved
    rw [read_back hread (by simp [haccept, LdpMessageBody.errors])]
    exact .inl ⟨haccept, u, _, rfl, hmoved⟩
  · rw [read_back hread (by simp [hreject, LdpMessageBody.errors, LdpError.policy])]
    exact .inr ⟨⟨reason, _, hreject⟩, hmoved⟩

theorem remoteModes_capabilities (srv : LdpServer) :
    remoteModes srv.capabilities = srv.identity.supportedPayloadModes := by
  have hmodes : srv.capabilities.get "supported_modes" =
      some (.array (srv.identity.supportedPayloadModes.map PayloadMode.toValue)) := rfl
  simp [remoteModes, hmodes]

theorem negotiated_proposeConfig (srv : LdpServer) (config : LdpAdapterConfig)
    (mode : PayloadMode) :
    srv.negotiated (proposeConfig config mode) =
      negotiatePayloadMode [mode, .text] srv.identity.supportedPayloadModes := by
  simp [LdpServer.negotiated, LdpServer.requestedMode, proposeConfig, Value.get]

/-- What the client negotiates against the server's manifest. -/
def initiated (config : LdpAdapterConfig) (srv : LdpServer) : NegotiatedPayload :=
  negotiatePayloadMode config.session.preferredPayloadModes srv.identity.supportedPayloadModes

/-- What the server then negotiates over the mode it is asked for. -/
def responded (config : LdpAdapterConfig) (srv : LdpServer) : NegotiatedPayload :=
  negotiatePayloadMode [(initiated config srv).mode, .text] srv.identity.supportedPayloadModes

theorem responded_mode (config : LdpAdapterConfig) (srv : LdpServer) :
    (responded config srv).mode = (initiated config srv).mode :=
  agreedMode_proposed _ _

theorem others_lookup (hothers : ∀ d s t, others d s t → Foreign d s t) {drawn : List String}
    {id : String} (hid : id ∈ drawn) {s t : ServerState}
    (h : ReflTransGen (Respecting others drawn) s t) :
    t.sessions.lookup id = s.sessions.lookup id := by
  induction h with
  | refl => rfl
  | tail _ hstep ih =>
      obtain ⟨d, hd, hother⟩ := hstep
      rw [(hothers _ _ _ hother).lookup (hd hid), ih]

/-- What both sides hold after a handshake that gave the client a session. -/
structure Established (config : LdpAdapterConfig) (srv : LdpServer) (answers : List LdpEnvelope)
    (session held : LdpSession) : Prop where
  client : session.payload = initiated config srv
  server : held.payload = responded config srv
  accepted : ∃ manifest accept, answers = [manifest, accept] ∧
    accept.body = .sessionAccept session.sessionId held.payload.mode

variable {u v w w' : Linked ServerState} {answers : List LdpEnvelope}

theorem handshake_established (hothers : ∀ d s t, others d s t → Foreign d s t)
    {session : LdpSession}
    (h : LinkedSessionManager.Handshake hmac config url (Serves hmac srv others) faulty tasks
      others u v answers (.ok session)) :
    session.sessionId ∈ v.drawn ∧ ∃ held, v.peer.sessions.lookup session.sessionId = some held ∧
      Established config srv answers session held := by
  cases h with
  | @proposed v₁ v₂ p₁ p₂ manifest capabilities _ _ messageId₂ timestamp₂ sessionId answer _
      _ hello hmanifest _ hid hpropose hmoved hfinished =>
      have hcaps : capabilities = srv.capabilities := by
        have hbody := (exchange_hello hello).2 manifest rfl
        rw [hmanifest] at hbody
        exact LdpMessageBody.capabilityManifest.inj hbody
      have hclient : clientNegotiated config capabilities = initiated config srv := by
        rw [hcaps, clientNegotiated, remoteModes_capabilities]
        rfl
      rw [hclient] at hpropose hfinished
      cases hfinished with
      | @accepted accept acceptedId mode now hbody =>
          rcases exchange_propose hpropose with
            ⟨haccept, s, held, hpayload, hsince⟩ | ⟨⟨reason, error, hreject⟩, _⟩
          · rw [negotiated_proposeConfig] at haccept hpayload
            have hsame : acceptedId = sessionId := by
              rw [hbody] at haccept
              exact (LdpMessageBody.sessionAccept.inj haccept).1
            refine ⟨?_, held, ?_, rfl, hpayload, manifest, accept, rfl, ?_⟩
            · exact hsame ▸ hmoved.drawn hid
            · show v.peer.sessions.lookup acceptedId = some held
              rw [hsame, others_lookup hothers hid hmoved.peer,
                others_lookup hothers hid (Respecting.of_others hsince)]
              exact AList.lookup_insert _
            · show accept.body = .sessionAccept acceptedId held.payload.mode
              rw [haccept, hsame, hpayload]
          · rw [hbody] at hreject
            cases hreject

/-- A rejected proposal leaves both sides to their other parties. -/
theorem handshake_rejected {r : Except String LdpSession}
    (h : LinkedSessionManager.Handshake hmac config url (Serves hmac srv others) faulty tasks
      others u v answers r) {back : LdpEnvelope} (hback : back ∈ answers) {reason : String}
    {error : Option LdpError} (hreject : back.body = .sessionReject reason error) :
    (∃ message, r = .error message) ∧ Moved tasks others u v := by
  cases h with
  | @greeted v₁ p₁ _ _ message answer hv hello hnone hmoved =>
      have hp := exchange_hello hello
      exact ⟨⟨message, rfl⟩, (hv.trans (moved_peer hp.1)).trans hmoved⟩
  | @proposed v₁ v₂ p₁ p₂ manifest capabilities _ _ messageId₂ timestamp₂ sessionId answer _
      hv₁ hello hmanifest hv₂ hid hpropose hmoved hfinished =>
      have hp₁ := exchange_hello hello
      have hmid : Moved tasks others u v₂ :=
        (hv₁.trans (moved_peer hp₁.1)).trans hv₂
      rcases List.mem_cons.mp hback with rfl | hback
      · rw [hmanifest] at hreject
        cases hreject
      · cases answer with
        | error text => cases hback
        | ok answer =>
            have heq : back = answer := List.mem_singleton.mp hback
            subst heq
            rcases exchange_propose hpropose with ⟨haccept, _⟩ | ⟨_, hothersOnly⟩
            · rw [hreject] at haccept
              cases haccept
            · refine ⟨?_, (hmid.trans (moved_peer hothersOnly)).trans hmoved⟩
              cases hfinished with
              | accepted now hbody =>
                  rw [hreject] at hbody
                  cases hbody
              | refused message _ => exact ⟨message, rfl⟩

/-- A new handshake that returns a session leaves one on the server, under the
same id, and both sides have negotiated what they would alone. -/
theorem getOrEstablish_established (hothers : ∀ d s t, others d s t → Foreign d s t)
    {tr : Trace} {session : LdpSession}
    (h : LinkedRun (Serves hmac srv others) faulty tasks others (getOrEstablish hmac config url)
      w tr w' (.ok session)) (hr : responses tr ≠ []) :
    ∃ held, w'.peer.sessions.lookup session.sessionId = some held ∧
      Established config srv (responses tr) session held := by
  obtain ⟨u, v, _, hshake, hpeer, _⟩ := getOrEstablish_run h hr
  obtain ⟨hid, held, hheld, hest⟩ := handshake_established hothers hshake
  refine ⟨held, ?_, hest⟩
  rw [others_lookup hothers hid hpeer, hheld]

end

/-- Agreement on the mode, among other clients of the server and other tasks of
the client. A call that reuses a cached session gets no response. -/
theorem getOrEstablish_agrees (hmac : Hmac) (srv : LdpServer) (config : LdpAdapterConfig)
    (url : String) (faulty : Prop) (tasks : ClientState → ClientState → Prop)
    (others : List String → ServerState → ServerState → Prop)
    (hothers : ∀ d s t, others d s t → Foreign d s t) (w w' : Linked ServerState) (tr : Trace)
    (r : Except String LdpSession)
    (h : LinkedRun (Serves hmac srv others) faulty tasks others (getOrEstablish hmac config url)
      w tr w' r) :
    (∀ session, r = .ok session → responses tr ≠ [] →
      session.payload.mode = agreedMode PayloadMode.isImplemented
        config.session.preferredPayloadModes srv.identity.supportedPayloadModes ∧
      (∃ held, w'.peer.sessions.lookup session.sessionId = some held ∧
        held.payload.mode = session.payload.mode) ∧
      ∃ manifest accept, responses tr = [manifest, accept] ∧
        accept.body = .sessionAccept session.sessionId session.payload.mode) ∧
    (∀ back ∈ responses tr, ∀ reason error, back.body = .sessionReject reason error →
      (∃ message, r = .error message) ∧ Moved tasks others w w') := by
  constructor
  · intro session hok hr
    subst hok
    obtain ⟨held, hheld, hest⟩ := getOrEstablish_established hothers h hr
    obtain ⟨manifest, accept, hanswers, haccept⟩ := hest.accepted
    have hmode : held.payload.mode = session.payload.mode := by
      rw [hest.client, hest.server, responded_mode]
    rw [hmode] at haccept
    refine ⟨?_, ⟨held, hheld, hmode⟩, manifest, accept, hanswers, haccept⟩
    rw [hest.client]
    rfl
  · intro back hback reason error hreject
    obtain ⟨u, v, hu, hshake, _, hend⟩ := getOrEstablish_run h (List.ne_nil_of_mem hback)
    obtain ⟨⟨message, hr⟩, hmoved⟩ := handshake_rejected hshake hback hreject
    have hv := hend message hr
    rw [hv] at hmoved
    exact ⟨⟨message, hr⟩, hu.trans hmoved⟩

def echoConfig : LdpAdapterConfig where
  trustDomain := { name := "test-domain" }
  session := { preferredPayloadModes := [.embeddingHints, .semanticFrame, .text] }

def alone : Linked ServerState := ⟨ClientState.empty, ServerState.empty, []⟩

theorem getOrEstablish_agrees_echo :
    ∃ w' tr session, LinkedRun (Serves submissionMac (LdpServer.echoServer "ldp:b" "B")
        fun _ => Quiet) False Quiet (fun _ => Quiet)
        (getOrEstablish submissionMac echoConfig "u") alone tr w' (.ok session) ∧
      session.payload.mode = .semanticFrame ∧
      ∃ held, w'.peer.sessions.lookup session.sessionId = some held ∧
        held.payload.mode = session.payload.mode := by
  let out := Program.exec (networked (serve submissionMac (LdpServer.echoServer "ldp:b" "B")))
    (getOrEstablish submissionMac echoConfig "u") alone
  have hrun : LinkedRun (Serves submissionMac (LdpServer.echoServer "ldp:b" "B")
      fun _ => Quiet) False Quiet (fun _ => Quiet)
      (getOrEstablish submissionMac echoConfig "u") alone out.1 out.2.1 out.2.2 :=
    exec_run _ (networked_meaning (serve_serves _ _ _) False) _ _
  have hok : ∃ session, out.2.2 = .ok session := ⟨_, rfl⟩
  have hanswers : (responses out.1).isEmpty = false := rfl
  obtain ⟨session, hsession⟩ := hok
  have hagree := (getOrEstablish_agrees submissionMac (LdpServer.echoServer "ldp:b" "B")
    echoConfig "u" False Quiet (fun _ => Quiet) (fun _ _ _ h => h.elim) alone out.2.1 out.1 out.2.2
    hrun).1 session hsession (List.isEmpty_eq_false_iff.mp hanswers)
  rw [hsession] at hrun
  exact ⟨_, _, session, hrun, hagree.1, hagree.2.1⟩

end LdpProtocol.Handshake
