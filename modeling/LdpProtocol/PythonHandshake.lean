import LdpProtocol.Handshake
import LdpProtocol.LinkedPythonClient
import LdpProtocol.CrossWire

/-!
# The handshake of a Python client with a Rust server

The proposal lists the client's modes under a key the server does not look at,
and the server takes the semantic frame for requested. What it comes to is the
mode of both ends, or the client does not speak it and gives up.
-/
namespace LdpProtocol.PythonHandshake
open InteractivePrograms InterferedRuns LinkedParties Relation
open JsonValues PayloadModes EnvelopeSigning
open MessageTypes ServerHandlers LinkedServer
open LinkedPythonClient (helloMessage proposeMessage Read Discovered)
open PythonClient (LdpClient)

variable {hmac : Hmac} {srv : LdpServer} {others : List String → ServerState → ServerState → Prop}
  {client : LdpClient} {url : String} {advertised : List PayloadMode} {drawn : List String}
  {s t : ServerState}

/-- The server reads a Python message whose body it can read. -/
theorem served {p : PythonMessages.LdpEnvelope} {body : LdpMessageBody}
    {wire : Except String Value} (hp : p.provenance = none)
    (hb : LdpMessageBody.fromValue p.body.modelDump = some body)
    (h : Serves hmac srv others drawn p.modelDump s wire t) :
    ∃ tr r, Run ServerCall.Meaning (others drawn)
      (srv.handleMessage hmac (CrossWire.sent p body)) s tr t r ∧
      wire = r.map LdpEnvelope.toValue := by
  have hread := CrossWire.fromValue_modelDump hp hb
  cases h with
  | @handled e tr _ r hvalid hrun =>
      rw [hread] at hvalid
      cases hvalid
      exact ⟨tr, r, hrun, rfl⟩
  | invalid _ hvalid =>
      rw [hread] at hvalid
      cases hvalid

theorem exchange_hello (hclient : client.signingSecret = none)
    (hsrv : srv.signingSecret = none) {messageId timestamp : String} {answer : Except String Value}
    (h : LinkedPythonClient.Exchange (Serves hmac srv others) False drawn
      (helloMessage client hmac url messageId timestamp advertised).modelDump s answer t) :
    ∃ document, answer = .ok document ∧ ∀ made,
      (PythonMessages.LdpEnvelope.modelValidate made document).isSome = true := by
  apply Exchanged.reliable h
  intro wire t hserved
  have hp : (helloMessage client hmac url messageId timestamp advertised).provenance = none := by
    unfold helloMessage
    rw [hclient]
    rfl
  obtain ⟨tr, r, hrun, rfl⟩ := served hp
    (LinkedPythonClient.helloMessage_body ▸ CrossWire.fromValue_hello _ _) hserved
  obtain ⟨response, rfl⟩ :=
    handleMessage_answered hsrv (by exact ServerGate.respond_total _ _ _ _) hrun
  obtain ⟨hbody, hnone⟩ := (hello_among rfl hrun).2 response rfl
  refine ⟨_, _, rfl, rfl, ?_⟩
  intro made
  rw [CrossWire.modelValidate_toValue made hnone
    (hbody ▸ CrossWire.modelValidate_capabilityManifest made _)]
  rfl

/-- What the server requests of itself for a proposal of the Python client. -/
def requested (srv : LdpServer) : NegotiatedPayload :=
  PayloadModes.negotiatePayloadMode [.semanticFrame, .text] srv.identity.supportedPayloadModes

theorem negotiated_pythonConfig :
    srv.negotiated (.object (client.proposeConfig advertised)) = requested srv := by
  have hkey : (Value.object (client.proposeConfig advertised)).get "payload_mode" = none := by
    simp [LdpClient.proposeConfig, List.lookup]
  unfold LdpServer.negotiated LdpServer.requestedMode
  rw [hkey]
  rfl

theorem remoteDomain_pythonConfig :
    LdpServer.remoteDomain (.object (client.proposeConfig advertised)) =
      client.trustDomain.name := by
  simp [LdpServer.remoteDomain, LdpClient.proposeConfig, List.lookup]

theorem exchange_propose (hclient : client.signingSecret = none)
    (hsrv : srv.signingSecret = none)
    (ht : srv.identity.trustDomain.trusts client.trustDomain.name = true)
    {messageId timestamp sessionId : String} {answer : Except String Value}
    (h : LinkedPythonClient.Exchange (Serves hmac srv others) False drawn
      (proposeMessage client hmac url messageId timestamp sessionId advertised).modelDump
      s answer t) :
    ∃ document, answer = .ok document ∧
      ((∀ made, ∃ back, PythonMessages.LdpEnvelope.modelValidate made document = some back ∧
        back.body = .sessionAccept sessionId (requested srv).mode) ∧
      ∃ (u : ServerState) (held : LdpSession), held.payload = requested srv ∧
        ReflTransGen (others drawn)
          { u with sessions := u.sessions.insert sessionId held } t) := by
  apply Exchanged.reliable h
  intro wire t hserved
  have hmessage : proposeMessage client hmac url messageId timestamp sessionId advertised =
      PythonMessages.LdpEnvelope.create messageId timestamp sessionId client.delegateId url
        (.sessionPropose (client.proposeConfig advertised)) .text := by
    unfold proposeMessage
    rw [hclient]
    rfl
  rw [hmessage] at hserved
  obtain ⟨tr, r, hrun, rfl⟩ :=
    served rfl (CrossWire.fromValue_sessionPropose _) hserved
  obtain ⟨response, rfl⟩ :=
    handleMessage_answered hsrv (by exact ServerGate.handleSessionPropose_total _ _ _) hrun
  rcases propose_among rfl hrun with ⟨hbody, hnone, u, now, hmoved⟩ | ⟨hdistrust, _⟩
  · rw [negotiated_pythonConfig] at hbody
    refine ⟨_, _, rfl, rfl, ?_, u, _, negotiated_pythonConfig, hmoved⟩
    intro made
    exact ⟨_, CrossWire.modelValidate_toValue made hnone
      (hbody ▸ CrossWire.modelValidate_sessionAccept made _ _), rfl⟩
  · rw [remoteDomain_pythonConfig, ht] at hdistrust
    cases hdistrust

/-- The client takes up the card of a trusted server exactly when it can read it. -/
theorem discovered_iff (ht : client.trustDomain.trusts srv.identity.trustDomain.name = true) :
    (∃ identity, Discovered client srv.identity.toValue identity) ↔
      CrossWire.Readable srv.identity := by
  rw [← CrossWire.modelValidate_card, Option.isSome_iff_exists]
  constructor
  · intro h
    obtain ⟨identity, hread, _⟩ := h
    exact ⟨identity, hread⟩
  · intro h
    obtain ⟨identity, hread⟩ := h
    refine ⟨identity, hread, ?_⟩
    intro _
    rw [CrossWire.modelValidate_card_trustDomain hread]
    exact ht

variable {registered : List PayloadMode}
  {tasks : PythonClient.Sessions → PythonClient.Sessions → Prop}
  {w w' : LinkedPythonClient.Linked ServerState} {tr : LinkedPythonClient.Trace}
  {r : Except PythonSigning.Raised PythonClient.LdpSession}

/-- The client speaks the mode the server comes to. -/
def Spoken (client : LdpClient) (registered : List PayloadMode) (srv : LdpServer) : Prop :=
  (requested srv).mode = .text ∨ (requested srv).mode ∈ client.advertisedModes registered

theorem spoken_of_first (h : .semanticFrame ∈ srv.identity.supportedPayloadModes →
      SemanticFrameFirst client.config.preferredPayloadModes
        srv.identity.supportedPayloadModes) : Spoken client registered srv := by
  rcases mode_cases [.semanticFrame, .text] srv.identity.supportedPayloadModes with
    htext | hframe
  · exact .inl htext
  · have hmem := semanticFrameFirst_requested.mp ((mode_eq_semanticFrame_iff _ _).mp hframe)
    refine .inr ?_
    unfold LdpClient.advertisedModes requested
    rw [hframe, List.mem_filter]
    exact ⟨(semanticFrameFirst_mem (h hmem)).1, rfl⟩

theorem read_accepted {document : Value} {sessionId : String} {mode : PayloadMode}
    {outcome : Option PythonMessages.LdpEnvelope}
    (hvalid : ∀ made, ∃ back, PythonMessages.LdpEnvelope.modelValidate made document = some back ∧
      back.body = .sessionAccept sessionId mode) (h : Read (.ok document) outcome) :
    ∃ back, outcome = some back ∧ back.body = .sessionAccept sessionId mode := by
  cases h with
  | @read made document back hsome =>
      obtain ⟨back', hsome', hbody⟩ := hvalid made
      rw [hsome'] at hsome
      cases hsome
      exact ⟨_, rfl, hbody⟩
  | @invalid made document hnone =>
      obtain ⟨back', hsome', _⟩ := hvalid made
      rw [hsome'] at hnone
      cases hnone

/-- What the client makes of an acceptance in the given mode. -/
theorem concluded_accepted {mode : PayloadMode} {sessionId : String}
    {back : PythonMessages.LdpEnvelope}
    (ht : client.trustDomain.trusts srv.identity.trustDomain.name = true)
    (hbody : back.body = .sessionAccept sessionId mode)
    (h : LinkedPythonClient.Concluded client url srv.identity.toValue False sessionId advertised
      (some back) r) :
    ((∃ error, r = .error error) ∧
      ¬ (CrossWire.Readable srv.identity ∧ (mode = .text ∨ mode ∈ advertised))) ∨
    (CrossWire.Readable srv.identity ∧ ∃ session, r = .ok session ∧
      session.payload.mode = mode ∧ session.sessionId = sessionId) := by
  have hmode : back.body.negotiatedMode.getD .text = mode := by
    rw [hbody]
    rfl
  have hsame : LdpClient.acceptedId back.body sessionId = sessionId := by
    rw [hbody]
    unfold LdpClient.acceptedId
    split <;> rfl
  cases h with
  | rejected error hreject =>
      rw [hbody] at hreject
      have htype : "SESSION_ACCEPT" = "SESSION_REJECT" := hreject
      exact absurd htype (by decide)
  | notAdvertised error _ hne hno =>
      rw [hmode] at hne hno
      exact .inl ⟨⟨error, rfl⟩, fun hcon => (not_or.mpr ⟨hne, hno⟩) hcon.2⟩
  | undiscovered error _ hwhy =>
      refine .inl ⟨⟨error, rfl⟩, ?_⟩
      intro hcon
      obtain ⟨identity, hd⟩ := (discovered_iff ht).mpr hcon.1
      exact (hwhy.resolve_left id) identity hd
  | @opened _ identity createdAt lastUsed _ _ hd =>
      exact .inr ⟨(discovered_iff ht).mp ⟨identity, hd⟩, _, rfl, hmode, hsame⟩

/-- A handshake with a server fails, or both ends are in the mode the server
comes to. -/
theorem server_handshake (hothers : ∀ drawn s t, others drawn s t → Foreign drawn s t)
    (hclient : client.signingSecret = none) (hsrv : srv.signingSecret = none)
    (ht : client.trustDomain.mutuallyTrusts srv.identity.trustDomain = true)
    (h : LinkedPythonClient.LinkedRun (Serves hmac srv others) srv.identity.toValue registered False
      tasks others (client.establishSession hmac url) w tr w' r) :
    ((∃ error, r = .error error) ∧
      ¬ (CrossWire.Readable srv.identity ∧ Spoken client registered srv)) ∨
    (CrossWire.Readable srv.identity ∧ ∃ session held, r = .ok session ∧
      session.payload.mode = (requested srv).mode ∧
      w'.peer.sessions.lookup session.sessionId = some held ∧ held.payload = requested srv) := by
  have htrusts : client.trustDomain.trusts srv.identity.trustDomain.name = true ∧
      srv.identity.trustDomain.trusts client.trustDomain.name = true := by
    simpa [DelegateIdentity.TrustDomain.mutuallyTrusts] using ht
  cases LinkedPythonClient.establishSession_run h with
  | unanswered error _ hello hread _ =>
      obtain ⟨document, rfl, hvalid⟩ := exchange_hello hclient hsrv hello
      cases hread with
      | @invalid made document hnone =>
          have hsome := hvalid made
          rw [hnone] at hsome
          cases hsome
  | @proposed v₁ v₂ p₁ p₂ _ _ _ _ sessionId _ answer _ outcome r _ _ _ _ hid hpropose hread hpeer
      hconcluded =>
      obtain ⟨document, rfl, hvalid, u, held, hpayload, hmoved⟩ :=
        exchange_propose hclient hsrv htrusts.2 hpropose
      obtain ⟨back, rfl, hbody⟩ := read_accepted hvalid hread
      have hheld : w'.peer.sessions.lookup sessionId = some held := by
        rw [Handshake.others_lookup hothers hid hpeer,
          Handshake.others_lookup hothers hid (Respecting.of_others hmoved)]
        exact AList.lookup_insert _
      rcases concluded_accepted htrusts.1 hbody hconcluded with
        hfailed | ⟨hreadable, session, hr, hmode, hsame⟩
      · exact .inl hfailed
      · refine .inr ⟨hreadable, session, held, hr, hmode, ?_, hpayload⟩
        rw [hsame]
        exact hheld

end LdpProtocol.PythonHandshake
