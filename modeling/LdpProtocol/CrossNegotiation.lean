import LdpProtocol.FallbackChains
import LdpProtocol.DelegateHandshake
import LdpProtocol.PythonHandshake

/-!
# Handshakes across the SDKs

The agreed mode is the first one in the initiator's list that the responder
names and both implement. Neither pair of SDKs negotiates over both lists; they
settle on the agreed mode exactly where it is the one they come to without.
-/
namespace LdpProtocol.CrossNegotiation
open InteractivePrograms InterferedRuns LinkedParties Relation
open JsonValues PayloadModes EnvelopeSigning FallbackChains DelegateHandshake PythonHandshake

/-- Implemented by the Rust SDK and in the Python process. -/
def bothImplement (registered : List PayloadMode) (mode : PayloadMode) : Bool :=
  mode.isImplemented && PythonIdentity.isImplemented registered mode

theorem bothImplement_eq (registered : List PayloadMode) :
    bothImplement registered = PayloadMode.isImplemented := by
  funext m
  cases m <;> simp [bothImplement, PythonIdentity.isImplemented, PayloadMode.isImplemented]

/-- Both ends are in the agreed mode, and the responder's is one the initiator
listed. -/
structure Settled (registered initiatorPrefs responderPrefs : List PayloadMode)
    (atInitiator atResponder : PayloadMode) : Prop where
  initiator : atInitiator = agreedMode (bothImplement registered) initiatorPrefs responderPrefs
  responder : atResponder = agreedMode (bothImplement registered) initiatorPrefs responderPrefs
  listed : atResponder = .text ∨ atResponder ∈ initiatorPrefs

section Lists
variable {registered initiatorPrefs responderPrefs : List PayloadMode}

theorem agreedMode_bothImplement :
    agreedMode (bothImplement registered) initiatorPrefs responderPrefs =
      (PayloadModes.negotiatePayloadMode initiatorPrefs responderPrefs).mode := by
  rw [bothImplement_eq]
  rfl

theorem listed_of_agreed {mode : PayloadMode}
    (h : mode = agreedMode (bothImplement registered) initiatorPrefs responderPrefs) :
    mode = .text ∨ mode ∈ initiatorPrefs := by
  rw [h]
  rcases agreedMode_cases (bothImplement registered) initiatorPrefs responderPrefs with
    htext | ⟨_, hlisted, _⟩
  · exact .inl htext
  · exact .inr hlisted

/-- Two ends in the same mode have settled when it is the semantic frame exactly
where that comes first. -/
theorem settled_iff {mode : PayloadMode} (hmode : mode = .text ∨ mode = .semanticFrame) :
    Settled registered initiatorPrefs responderPrefs mode mode ↔
      (mode = .semanticFrame ↔ SemanticFrameFirst initiatorPrefs responderPrefs) := by
  have hagreed : agreedMode (bothImplement registered) initiatorPrefs responderPrefs = _ :=
    agreedMode_bothImplement
  constructor
  · intro h
    have heq := h.initiator
    rw [hagreed] at heq
    rw [heq]
    exact mode_eq_semanticFrame_iff _ _
  · intro h
    have heq : mode = agreedMode (bothImplement registered) initiatorPrefs responderPrefs := by
      rw [← mode_eq_semanticFrame_iff] at h
      rw [hagreed]
      rcases mode_cases initiatorPrefs responderPrefs with htext | hframe
      · rw [htext] at h ⊢
        exact hmode.resolve_right fun hframe => by cases h.mp hframe
      · rw [hframe] at h ⊢
        exact h.mpr rfl
    exact ⟨heq, heq, listed_of_agreed heq⟩

/-- Two ends in text. -/
theorem settled_text_iff : Settled registered initiatorPrefs responderPrefs .text .text ↔
    ¬ SemanticFrameFirst initiatorPrefs responderPrefs := by
  rw [settled_iff (.inl rfl)]
  simp

/-- Two ends in what a server comes to that is asked for the semantic frame. -/
theorem settled_requested_iff {mode : PayloadMode} (hmode : mode =
      (PayloadModes.negotiatePayloadMode [.semanticFrame, .text] responderPrefs).mode) :
    Settled registered initiatorPrefs responderPrefs mode mode ↔
      (.semanticFrame ∈ responderPrefs → SemanticFrameFirst initiatorPrefs responderPrefs) := by
  subst hmode
  rw [settled_iff (mode_cases _ _), mode_eq_semanticFrame_iff, semanticFrameFirst_requested]
  constructor
  · intro h
    exact h.mp
  · intro h
    exact ⟨h, fun hfirst => (semanticFrameFirst_mem hfirst).2⟩

end Lists

/-- The Rust client got a session and the delegate started it, both in the agreed
mode. -/
def SettlesWithDelegate (registered : List PayloadMode) (config : SessionManager.LdpAdapterConfig)
    (d : PythonDelegate.LdpDelegate)
    (w' : LinkedSessionManager.Linked LinkedDelegate.Started)
    (r : Except String MessageTypes.LdpSession) : Prop :=
  ∃ session negotiated, r = .ok session ∧ (session.sessionId, negotiated) ∈ w'.peer ∧
    Settled registered config.session.preferredPayloadModes d.identity.supportedPayloadModes
      session.payload.mode negotiated.mode

/-- The Python client got a session and the server holds it, both in the agreed
mode. -/
def SettlesWithServer (registered : List PayloadMode) (client : PythonClient.LdpClient)
    (srv : ServerHandlers.LdpServer)
    (w' : LinkedPythonClient.Linked ServerHandlers.ServerState)
    (r : Except PythonSigning.Raised PythonClient.LdpSession) : Prop :=
  ∃ session held, r = .ok session ∧ w'.peer.sessions.lookup session.sessionId = some held ∧
    Settled registered client.config.preferredPayloadModes srv.identity.supportedPayloadModes
      session.payload.mode held.payload.mode

/-- With a delegate both ends come to text. -/
theorem delegate_settles_iff {display : Value → String} {hmac : Hmac}
    {config : SessionManager.LdpAdapterConfig} {d : PythonDelegate.LdpDelegate} {url : String}
    {registered : List PayloadMode}
    {tasks : SessionManager.ClientState → SessionManager.ClientState → Prop}
    {others : List String → LinkedDelegate.Started → LinkedDelegate.Started → Prop}
    {w w' : LinkedSessionManager.Linked LinkedDelegate.Started} {tr : LinkedSessionManager.Trace}
    {r : Except String MessageTypes.LdpSession}
    (hothers : ∀ drawn s t, others drawn s t → s <+: t) (hd : d.signingSecret = none)
    (ht : d.identity.trustDomain.trusts config.trustDomain.name = true)
    (h : LinkedSessionManager.LinkedRun (LinkedDelegate.Serves display hmac d registered False)
      False tasks others (SessionManager.establishSession hmac config url) w tr w' r) :
    SettlesWithDelegate registered config d w' r ↔
      ¬ SemanticFrameFirst config.session.preferredPayloadModes
        d.identity.supportedPayloadModes := by
  obtain ⟨session, negotiated, hr, hclient, hstarted, hdelegate⟩ :=
    delegate_handshake hothers hd ht h
  constructor
  · intro hsettles
    obtain ⟨session', _, hr', _, hsettled⟩ := hsettles
    have hsame : session' = session := Except.ok.inj (hr'.symm.trans hr)
    rw [hsame, hclient] at hsettled
    have htext := hsettled.initiator.trans hsettled.responder.symm
    rw [← htext] at hsettled
    exact settled_text_iff.mp hsettled
  · intro hfirst
    refine ⟨session, negotiated, hr, hstarted, ?_⟩
    rw [hclient, hdelegate]
    exact settled_text_iff.mpr hfirst

/-- With a server both ends come to what it requests of itself, or the client
gives up. -/
theorem server_settles_iff {hmac : Hmac} {client : PythonClient.LdpClient}
    {srv : ServerHandlers.LdpServer} {url : String} {registered : List PayloadMode}
    {tasks : PythonClient.Sessions → PythonClient.Sessions → Prop}
    {others : List String → ServerHandlers.ServerState → ServerHandlers.ServerState → Prop}
    {w w' : LinkedPythonClient.Linked ServerHandlers.ServerState} {tr : LinkedPythonClient.Trace}
    {r : Except PythonSigning.Raised PythonClient.LdpSession}
    (hothers : ∀ drawn s t, others drawn s t → LinkedServer.Foreign drawn s t)
    (hclient : client.signingSecret = none) (hsrv : srv.signingSecret = none)
    (ht : client.trustDomain.mutuallyTrusts srv.identity.trustDomain = true)
    (h : LinkedPythonClient.LinkedRun (LinkedServer.Serves hmac srv others) srv.identity.toValue
      registered False tasks others (client.establishSession hmac url) w tr w' r) :
    SettlesWithServer registered client srv w' r ↔
      CrossWire.Readable srv.identity ∧
        (.semanticFrame ∈ srv.identity.supportedPayloadModes →
          SemanticFrameFirst client.config.preferredPayloadModes
            srv.identity.supportedPayloadModes) := by
  rcases server_handshake hothers hclient hsrv ht h with
    ⟨⟨error, hr⟩, hno⟩ | ⟨hreadable, session, held, hr, hmode, hheld, hpayload⟩
  · constructor
    · intro hsettles
      obtain ⟨session, _, hr', _⟩ := hsettles
      rw [hr] at hr'
      cases hr'
    · intro hcon
      exact (hno ⟨hcon.1, spoken_of_first hcon.2⟩).elim
  · constructor
    · intro hsettles
      obtain ⟨session', held', hr', hheld', hsettled⟩ := hsettles
      have hsame : session' = session := Except.ok.inj (hr'.symm.trans hr)
      rw [hsame, hheld] at hheld'
      rw [hsame, ← Option.some.inj hheld', hmode, hpayload] at hsettled
      exact ⟨hreadable, (settled_requested_iff rfl).mp hsettled⟩
    · intro hcon
      refine ⟨session, held, hr, hheld, ?_⟩
      rw [hmode, hpayload]
      exact (settled_requested_iff rfl).mpr hcon.2

/-- Every handshake across the SDKs, without faults, signing or distrust: with a
delegate it settles unless the semantic frame comes first, with a server only if
the card is readable and the semantic frame comes first or is not supported. -/
theorem handshakes_settle_iff (hmac : Hmac) (url : String) (registered : List PayloadMode) :
    (∀ (display : Value → String) (config : SessionManager.LdpAdapterConfig)
      (d : PythonDelegate.LdpDelegate)
      (tasks : SessionManager.ClientState → SessionManager.ClientState → Prop)
      (others : List String → LinkedDelegate.Started → LinkedDelegate.Started → Prop)
      (w w' : LinkedSessionManager.Linked LinkedDelegate.Started)
      (tr : LinkedSessionManager.Trace) (r : Except String MessageTypes.LdpSession),
      (∀ drawn s t, others drawn s t → s <+: t) → d.signingSecret = none →
      config.trustDomain.mutuallyTrusts d.identity.trustDomain = true →
      LinkedSessionManager.LinkedRun (LinkedDelegate.Serves display hmac d registered False) False
        tasks others (SessionManager.establishSession hmac config url) w tr w' r →
      (SettlesWithDelegate registered config d w' r ↔
        ¬ SemanticFrameFirst config.session.preferredPayloadModes
          d.identity.supportedPayloadModes)) ∧
    (∀ (client : PythonClient.LdpClient) (srv : ServerHandlers.LdpServer)
      (tasks : PythonClient.Sessions → PythonClient.Sessions → Prop)
      (others : List String → ServerHandlers.ServerState → ServerHandlers.ServerState → Prop)
      (w w' : LinkedPythonClient.Linked ServerHandlers.ServerState)
      (tr : LinkedPythonClient.Trace)
      (r : Except PythonSigning.Raised PythonClient.LdpSession),
      (∀ drawn s t, others drawn s t → LinkedServer.Foreign drawn s t) →
      client.signingSecret = none → srv.signingSecret = none →
      client.trustDomain.mutuallyTrusts srv.identity.trustDomain = true →
      LinkedPythonClient.LinkedRun (LinkedServer.Serves hmac srv others) srv.identity.toValue
        registered False tasks others (client.establishSession hmac url) w tr w' r →
      (SettlesWithServer registered client srv w' r ↔
        CrossWire.Readable srv.identity ∧
          (.semanticFrame ∈ srv.identity.supportedPayloadModes →
            SemanticFrameFirst client.config.preferredPayloadModes
              srv.identity.supportedPayloadModes))) := by
  constructor
  · intro display config d tasks others w w' tr r hothers hd ht h
    simp only [DelegateIdentity.TrustDomain.mutuallyTrusts, Bool.and_eq_true] at ht
    exact delegate_settles_iff hothers hd ht.2 h
  · intro client srv tasks others w w' tr r hothers hclient hsrv ht h
    exact server_settles_iff hothers hclient hsrv ht h

section Runs
open SessionManager ServerHandlers PythonClient

/-- A Rust client that runs a handshake with a delegate that has its defaults. -/
def delegateOutcome (config : LdpAdapterConfig) :=
  Program.exec (LinkedSessionManager.networked
    (LinkedDelegate.serve (fun _ => "") submissionMac plainDelegate))
    (SessionManager.establishSession submissionMac config "u") ⟨ClientState.empty, [], []⟩

theorem delegate_run (config : LdpAdapterConfig) :
    LinkedSessionManager.LinkedRun
      (LinkedDelegate.Serves (fun _ => "") submissionMac plainDelegate [] False) False Quiet
      (fun _ => Quiet) (SessionManager.establishSession submissionMac config "u")
      ⟨ClientState.empty, [], []⟩ (delegateOutcome config).1 (delegateOutcome config).2.1
      (delegateOutcome config).2.2 :=
  exec_run _ (LinkedSessionManager.networked_meaning (LinkedDelegate.serve_serves _ _ _ _) False)
    _ _

/-- A Python client that runs a handshake with the echo server. -/
def serverOutcome (client : LdpClient) :=
  Program.exec (LinkedPythonClient.networked
    (LinkedServer.serve submissionMac (LdpServer.echoServer "ldp:b" "B"))
    (LdpServer.echoServer "ldp:b" "B").identity.toValue LinkedDelegate.defaults)
    (client.establishSession submissionMac "u") ⟨∅, ServerState.empty, []⟩

theorem server_run (client : LdpClient) :
    LinkedPythonClient.LinkedRun
      (LinkedServer.Serves submissionMac (LdpServer.echoServer "ldp:b" "B") fun _ => Quiet)
      (LdpServer.echoServer "ldp:b" "B").identity.toValue [] False Quiet (fun _ => Quiet)
      (client.establishSession submissionMac "u") ⟨∅, ServerState.empty, []⟩
      (serverOutcome client).1 (serverOutcome client).2.1 (serverOutcome client).2.2 :=
  exec_run _ (LinkedPythonClient.networked_meaning (LinkedServer.serve_serves _ _ _) _ _ _) _ _

def preferringText : LdpAdapterConfig where
  session := { preferredPayloadModes := [.text] }

def testClient (preferred : List PayloadMode) : LdpClient where
  config := { preferredPayloadModes := preferred }
  trustDomain := { name := "test-domain" }

theorem echoServer_readable :
    CrossWire.Readable (LdpServer.echoServer "ldp:b" "B").identity where
  name := rfl
  schemas := by
    intro c hc
    rw [List.mem_singleton.mp hc]
    exact ⟨(fun _ h => by cases h), (fun _ h => by cases h)⟩

/-- Text with a delegate, and the semantic frame with a server, are settled on. -/
theorem handshakes_settle_iff_defaults :
    SettlesWithDelegate [] preferringText plainDelegate (delegateOutcome preferringText).2.1
      (delegateOutcome preferringText).2.2 ∧
    SettlesWithServer [] (testClient [.semanticFrame, .text]) (LdpServer.echoServer "ldp:b" "B")
      (serverOutcome (testClient [.semanticFrame, .text])).2.1
      (serverOutcome (testClient [.semanticFrame, .text])).2.2 := by
  constructor
  · apply ((handshakes_settle_iff submissionMac "u" []).1 (fun _ => "") preferringText plainDelegate
      Quiet (fun _ => Quiet) _ _ _ _ (fun _ _ _ h => h.elim) rfl rfl
      (delegate_run preferringText)).mpr
    unfold SemanticFrameFirst
    decide
  · apply ((handshakes_settle_iff submissionMac "u" []).2 (testClient [.semanticFrame, .text])
      (LdpServer.echoServer "ldp:b" "B") Quiet (fun _ => Quiet) _ _ _ _
      (fun _ _ _ h => h.elim) rfl rfl rfl (server_run (testClient [.semanticFrame, .text]))).mpr
    exact ⟨echoServer_readable, fun _ => rfl⟩

/-- Default parties of the two SDKs end in text, and a Python client that wants
text alone is turned away by the mode it is answered. -/
theorem handshakes_unsettled :
    (∃ tr w' session, LinkedSessionManager.LinkedRun
        (LinkedDelegate.Serves (fun _ => "") submissionMac plainDelegate [] False) False Quiet
        (fun _ => Quiet) (SessionManager.establishSession submissionMac {} "u")
        ⟨ClientState.empty, [], []⟩ tr w' (.ok session) ∧
      agreedMode (bothImplement []) [.semanticFrame, .text]
        plainDelegate.identity.supportedPayloadModes = .semanticFrame ∧
      session.payload.mode = .text ∧
      ¬ SettlesWithDelegate [] {} plainDelegate w' (.ok session)) ∧
    ∃ tr w' error, LinkedPythonClient.LinkedRun
        (LinkedServer.Serves submissionMac (LdpServer.echoServer "ldp:b" "B") fun _ => Quiet)
        (LdpServer.echoServer "ldp:b" "B").identity.toValue [] False Quiet (fun _ => Quiet)
        ((testClient [.text]).establishSession submissionMac "u") ⟨∅, ServerState.empty, []⟩ tr w'
        (.error error) := by
  constructor
  · refine ⟨_, (delegateOutcome {}).2.1, _, delegate_run {}, rfl, rfl, ?_⟩
    intro h
    obtain ⟨session, negotiated, hr, _, hsettled⟩ := h
    have hsession := Except.ok.inj hr
    have hmode := hsettled.initiator
    rw [← hsession] at hmode
    exact absurd hmode (by decide)
  · exact ⟨_, (serverOutcome (testClient [.text])).2.1, _, server_run (testClient [.text])⟩

end Runs
end LdpProtocol.CrossNegotiation
