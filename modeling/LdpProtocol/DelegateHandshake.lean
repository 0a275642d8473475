import LdpProtocol.LinkedSessionManager
import LdpProtocol.LinkedDelegate
import LdpProtocol.CrossWire

/-!
# The handshake of a Rust client with a Python delegate

The delegate's manifest is a list of capabilities, in which the client finds no
modes; the proposal carries one mode under a key the delegate does not look at.
Between parties that trust each other and work, every handshake ends in text.
-/
namespace LdpProtocol.DelegateHandshake
open InteractivePrograms InterferedRuns LinkedParties Relation
open JsonValues PayloadModes EnvelopeSigning
open PythonMessages PythonSigning PythonDelegate DelegateGate LinkedDelegate
open LinkedSessionManager (helloMessage proposeMessage)

variable {display : Value → String} {hmac : Hmac} {d : LdpDelegate}
  {config : SessionManager.LdpAdapterConfig} {url : String} {registered : List PayloadMode}
  {drawn : List String} {s t : Started} {answer : Except String MessageTypes.LdpEnvelope}

/-- The delegate reads a Rust message whose body it can read. -/
theorem served {e : MessageTypes.LdpEnvelope} {body : LdpMessageBody} {wire : Except String Value}
    (hp : e.provenance = none)
    (hb : ∀ made, LdpMessageBody.modelValidate made e.body.toValue = some body)
    (h : Serves display hmac d registered False drawn e.toValue s wire t) :
    ∃ tr r, DelegateRun (d.handleMessage display hmac (CrossWire.received e body)) tr r ∧
      (∀ ev ∈ tr, Surroundings registered False ev) ∧ wire = answerOf r ∧ t = s ++ starts tr := by
  cases h with
  | @handled made envelope tr r hvalid hrun hs =>
      rw [CrossWire.modelValidate_toValue made hp (hb made)] at hvalid
      cases hvalid
      exact ⟨tr, r, hrun, hs, rfl, rfl⟩
  | @invalid made hvalid =>
      rw [CrossWire.modelValidate_toValue made hp (hb made)] at hvalid
      cases hvalid

theorem exchange_hello (hd : d.signingSecret = none) {messageId timestamp : String}
    (h : LinkedSessionManager.Exchange (Serves display hmac d registered False) False drawn
      (helloMessage hmac config url messageId timestamp) s answer t) :
    ∃ manifest, answer = .ok manifest ∧
      (manifest.body = .capabilityManifest d.capabilityList ∧ t = s) := by
  have hread : ∀ made, LdpMessageBody.modelValidate made
      (helloMessage hmac config url messageId timestamp).body.toValue =
        some (.hello config.delegateId config.session.preferredPayloadModes) := by
    intro made
    unfold helloMessage
    rw [EnvelopeSigning.signIfConfigured_body]
    exact CrossWire.modelValidate_hello made _ _
  apply Exchanged.reliable h
  intro wire t hserved
  obtain ⟨tr, r, hrun, _, rfl, rfl⟩ :=
    served (EnvelopeSigning.signIfConfigured_provenance ..) hread hserved
  obtain ⟨hstart, response, rfl, hnone, hmanifest⟩ := hello_answered hd rfl hrun
  have hback : MessageTypes.LdpMessageBody.fromValue response.body.modelDump =
      some (.capabilityManifest d.capabilityList) := by
    rw [hmanifest]
    exact CrossWire.fromValue_capabilityManifest _
  exact ⟨_, _, rfl, CrossWire.fromValue_modelDump hnone hback, rfl, by rw [hstart, List.append_nil]⟩

/-- The delegate reads the domain of a Rust proposal, and no preferences. -/
theorem exchange_propose (hd : d.signingSecret = none)
    (ht : d.identity.trustDomain.trusts config.trustDomain.name = true)
    {messageId timestamp sessionId remoteDelegateId : String} {mode : PayloadMode}
    (h : LinkedSessionManager.Exchange (Serves display hmac d registered False) False drawn
      (proposeMessage hmac config messageId timestamp sessionId remoteDelegateId mode)
      s answer t) :
    ∃ accept, answer = .ok accept ∧ ∃ acceptedId, accept.body = .sessionAccept acceptedId .text ∧
      t = s ++ [(acceptedId, PythonIdentity.negotiatePayloadMode []
        (d.identity.advertisedPayloadModes registered))] := by
  have hread : ∀ made, LdpMessageBody.modelValidate made
      (proposeMessage hmac config messageId timestamp sessionId remoteDelegateId
        mode).body.toValue = some (.sessionPropose
          [("payload_mode", mode.toValue), ("ttl_secs", .ofU64 config.session.ttlSecs),
            ("trust_domain", .string config.trustDomain.name)]) := by
    intro made
    unfold proposeMessage
    rw [EnvelopeSigning.signIfConfigured_body]
    exact CrossWire.modelValidate_sessionPropose made _
  apply Exchanged.reliable h
  intro wire t hserved
  obtain ⟨tr, r, hrun, hs, rfl, rfl⟩ :=
    served (EnvelopeSigning.signIfConfigured_provenance ..) hread hserved
  obtain ⟨acceptedId, hstart, response, rfl, hnone, haccept⟩ :=
    propose_answered hd rfl (by exact ht) hrun hs
  have hback : MessageTypes.LdpMessageBody.fromValue response.body.modelDump =
      some (.sessionAccept acceptedId .text) := by
    rw [haccept]
    exact CrossWire.fromValue_sessionAccept _ _
  exact ⟨_, _, rfl, CrossWire.fromValue_modelDump hnone hback, acceptedId, rfl, by rw [hstart]; rfl⟩

/-- A list in place of a manifest names no modes. -/
theorem clientNegotiated_capabilityList :
    (LinkedSessionManager.clientNegotiated config d.capabilityList).mode = .text := by
  have hremote : SessionManager.remoteModes d.capabilityList = [.text] := rfl
  unfold LinkedSessionManager.clientNegotiated
  rw [hremote]
  apply (mode_cases _ _).resolve_right
  intro hframe
  have hmem := (semanticFrameFirst_mem ((mode_eq_semanticFrame_iff _ _).mp hframe)).2
  simp at hmem

/-- Others only start sessions of their own. -/
theorem started_stays {others : List String → Started → Started → Prop}
    (hothers : ∀ drawn s t, others drawn s t → s <+: t) {started : String × NegotiatedPayload}
    (h : ReflTransGen (Respecting others drawn) s t) (hs : started ∈ s) : started ∈ t := by
  induction h with
  | refl => exact hs
  | tail _ hstep ih =>
      obtain ⟨_, _, hother⟩ := hstep
      exact (hothers _ _ _ hother).subset ih

variable {tasks : SessionManager.ClientState → SessionManager.ClientState → Prop}
  {others : List String → Started → Started → Prop}
  {w w' : LinkedSessionManager.Linked Started} {tr : LinkedSessionManager.Trace}
  {r : Except String MessageTypes.LdpSession}

/-- A handshake with a delegate always succeeds, in text at both ends. -/
theorem delegate_handshake (hothers : ∀ drawn s t, others drawn s t → s <+: t)
    (hd : d.signingSecret = none)
    (ht : d.identity.trustDomain.trusts config.trustDomain.name = true)
    (h : LinkedSessionManager.LinkedRun (Serves display hmac d registered False) False tasks others
      (SessionManager.establishSession hmac config url) w tr w' r) :
    ∃ session negotiated, r = .ok session ∧ session.payload.mode = .text ∧
      (session.sessionId, negotiated) ∈ w'.peer ∧ negotiated.mode = .text := by
  have hshake := LinkedSessionManager.establishSession_run h
  generalize LinkedSessionManager.responses tr = answers at hshake
  cases hshake with
  | greeted _ hello hnone _ =>
      obtain ⟨manifest, hok, hbody, _⟩ := exchange_hello hd hello
      exact (hnone manifest _ hok hbody).elim
  | @proposed v₁ v₂ p₁ p₂ manifest capabilities _ _ _ _ sessionId answer _ _ hello hmanifest _ _
      hpropose hmoved hfinished =>
      have hcaps : capabilities = d.capabilityList := by
        obtain ⟨_, hok, hbody, _⟩ := exchange_hello hd hello
        cases hok
        rw [hmanifest] at hbody
        exact MessageTypes.LdpMessageBody.capabilityManifest.inj hbody
      obtain ⟨accept, hok, acceptedId, haccept, hp₂⟩ := exchange_propose hd ht hpropose
      subst hcaps
      cases hfinished with
      | refused error hno => exact (hno accept acceptedId .text hok haccept).elim
      | @accepted back backId mode now hback =>
          cases hok
          rw [haccept] at hback
          cases hback
          refine ⟨_, PythonIdentity.negotiatePayloadMode []
            (d.identity.advertisedPayloadModes registered), rfl, clientNegotiated_capabilityList,
            ?_, rfl⟩
          apply started_stays hothers hmoved.peer
          rw [hp₂]
          exact List.mem_append_right _ List.mem_cons_self

end LdpProtocol.DelegateHandshake
