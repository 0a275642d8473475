import LdpProtocol.ConcurrentCalls
import LdpProtocol.SessionGating

/-!
# The server's sessions as a ledger of proposals

The abstract ledger of a session id is what the messages so far say about it:
the latest accepted proposal, unless a close was handled after it. The server's
session map is that ledger, entry for entry, after every sequence of messages.
-/
namespace LdpProtocol.SessionLedger
open InteractivePrograms InterferedRuns ConcurrentCalls
open JsonValues PayloadModes DelegateIdentity MessageTypes EnvelopeSigning ServerHandlers ServerRuns

/-- A proposal for the session was answered with SESSION_ACCEPT. -/
def Accepts (e : LdpEnvelope) (outcome : Except String LdpEnvelope) (k : String) : Prop :=
  e.sessionId = k ∧ (∃ config, e.body = .sessionPropose config) ∧
    ∃ response mode, outcome = .ok response ∧ response.body = .sessionAccept k mode

/-- A SESSION_CLOSE for the session was handled. -/
def Closes (e : LdpEnvelope) (outcome : Except String LdpEnvelope) (k : String) : Prop :=
  e.sessionId = k ∧ (∃ reason, e.body = .sessionClose reason) ∧ ∃ response, outcome = .ok response

/-- The latest accepted proposal for the session, with no close after it. -/
def Unclosed (log : List Exchange) (k : String) (x : Exchange) : Prop :=
  Latest (fun y => Accepts y.envelope y.outcome k)
    (fun y => Accepts y.envelope y.outcome k ∨ Closes y.envelope y.outcome k) log x

section Step
variable {srv : LdpServer} {e : LdpEnvelope} {s u : ServerState}
  {outcome : Except String LdpEnvelope} {k : String}

/-- The three things a message can do to one session. -/
def Posted (srv : LdpServer) (e : LdpEnvelope) (outcome : Except String LdpEnvelope) (k : String)
    (before after : Option LdpSession) : Prop :=
  (Accepts e outcome k ∧ ∃ config opened, e.body = .sessionPropose config ∧
    srv.identity.trustDomain.trusts (LdpServer.remoteDomain config) = true ∧
    after = some (srv.proposedSession e config opened)) ∨
  (Closes e outcome k ∧ ¬ Accepts e outcome k ∧ after = none) ∨
  (¬ Accepts e outcome k ∧ ¬ Closes e outcome k ∧ after = before)

theorem posted_of_other (hpropose : ∀ config, e.body ≠ .sessionPropose config)
    (hclose : ∀ reason, e.body ≠ .sessionClose reason) {found : Option LdpSession} :
    Posted srv e outcome k found found := by
  refine .inr (.inr ⟨?_, ?_, rfl⟩)
  · intro h
    obtain ⟨_, ⟨config, hb⟩, _⟩ := h
    exact hpropose config hb
  · intro h
    obtain ⟨_, ⟨reason, hb⟩, _⟩ := h
    exact hclose reason hb

theorem handled_posted {inv : List (String × Value)} (h : Handled srv e s inv u outcome) :
    Posted srv e outcome k (s.sessions.lookup k) (u.sessions.lookup k) := by
  cases h with
  | @accept config opened messageId now hb ht =>
      have hnoclose : ∀ outcome, ¬ Closes e outcome k := by
        intro outcome hc
        obtain ⟨_, ⟨reason, hb'⟩, _⟩ := hc
        rw [hb] at hb'
        cases hb'
      by_cases hk : e.sessionId = k
      · refine .inl ⟨⟨hk, ⟨config, hb⟩, _, (srv.negotiated config).mode, rfl, ?_⟩, config, opened,
          hb, ht, ?_⟩
        · rw [← hk]
          rfl
        · rw [← hk, AList.lookup_insert]
      · refine .inr (.inr ⟨fun ha => hk ha.1, hnoclose _, ?_⟩)
        rw [AList.lookup_insert_ne (Ne.symm hk)]
  | @reject config messageId now hb ht =>
      refine .inr (.inr ⟨?_, ?_, rfl⟩)
      · intro ha
        obtain ⟨_, _, response, mode, hr, hbody⟩ := ha
        cases hr
        cases hbody
      · intro hc
        obtain ⟨_, ⟨reason, hb'⟩, _⟩ := hc
        rw [hb] at hb'
        cases hb'
  | @close reason messageId now hb =>
      have hnoaccept : ∀ outcome, ¬ Accepts e outcome k := by
        intro outcome ha
        obtain ⟨_, ⟨config, hb'⟩, _⟩ := ha
        rw [hb] at hb'
        cases hb'
      by_cases hk : e.sessionId = k
      · refine .inr (.inl ⟨⟨hk, ⟨reason, hb⟩, _, rfl⟩, hnoaccept _, ?_⟩)
        rw [← hk, AList.lookup_erase]
      · refine .inr (.inr ⟨hnoaccept _, fun hc => hk hc.1, ?_⟩)
        rw [AList.lookup_erase_ne (Ne.symm hk)]
  | unhandled hu =>
      apply posted_of_other
      · intro config hb
        simp [hb, LdpMessageBody.tag] at hu
      · intro reason hb
        simp [hb, LdpMessageBody.tag] at hu
  | hello hb => exact posted_of_other (by simp [hb]) (by simp [hb])
  | submit hb => exact posted_of_other (by simp [hb]) (by simp [hb])
  | query _ hb => exact posted_of_other (by simp [hb]) (by simp [hb])
  | unknownTask hb => exact posted_of_other (by simp [hb]) (by simp [hb])
  | cancel hb => exact posted_of_other (by simp [hb]) (by simp [hb])

/-- Signing the response changes nothing of this. -/
theorem accepts_signed {hmac : Hmac} {secret : Option String} :
    Accepts e (outcome.map (signIfConfigured hmac secret)) k ↔ Accepts e outcome k := by
  unfold Accepts
  cases outcome with
  | error => simp [Except.map]
  | ok response => simp [Except.map, signIfConfigured_body]

theorem closes_signed {hmac : Hmac} {secret : Option String} :
    Closes e (outcome.map (signIfConfigured hmac secret)) k ↔ Closes e outcome k := by
  unfold Closes
  cases outcome <;> simp [Except.map]

theorem handleMessage_posted {hmac : Hmac} {tr : Trace} {r : Except String LdpEnvelope}
    (h : Run ServerCall.Meaning Quiet (srv.handleMessage hmac e) s tr u r) (k : String) :
    Posted srv e r k (s.sessions.lookup k) (u.sessions.lookup k) := by
  rcases handleMessage_handled h with ⟨error, _, _, rfl, rfl⟩ | ⟨_, outcome, hd, rfl⟩
  · refine .inr (.inr ⟨?_, ?_, rfl⟩)
    · intro ha
      obtain ⟨_, _, _, _, hr, _⟩ := ha
      cases hr
    · intro hc
      obtain ⟨_, _, _, hr⟩ := hc
      cases hr
  · unfold Posted
    rw [accepts_signed, closes_signed]
    exact handled_posted hd

end Step

/-- A held session is the one that the accepted proposal `x` opens. -/
def OpenedBy (srv : LdpServer) (session : LdpSession) (x : Exchange) : Prop :=
  ∃ config opened, x.envelope.body = .sessionPropose config ∧
    srv.identity.trustDomain.trusts (LdpServer.remoteDomain config) = true ∧
    session = srv.proposedSession x.envelope config opened

/-- The session map is the ledger. -/
theorem serves_ledger {hmac : Hmac} {srv : LdpServer} {log : List Exchange} {s : ServerState}
    (h : Serves hmac srv log s) (k : String) :
    (∀ session, s.sessions.lookup k = some session →
      ∃ x, Unclosed log k x ∧ OpenedBy srv session x) ∧
    ∀ x, Unclosed log k x → (s.sessions.lookup k).isSome = true := by
  induction h with
  | start =>
      constructor
      · intro session hs
        cases hs
      · intro x hx
        exact (not_latest_nil hx).elim
  | @handle log s u e tr r _ hrun ih =>
      rcases handleMessage_posted hrun k with ⟨haccepts, config, opened, hb, ht, hafter⟩ |
        ⟨hcloses, hnoaccept, hafter⟩ | ⟨hnoaccept, hnoclose, hafter⟩
      · constructor
        · intro session hs
          rw [hafter] at hs
          refine ⟨⟨e, tr, s, u, r⟩, latest_concat.mpr (.inl ⟨haccepts, rfl⟩), config, opened, hb,
            ht, (Option.some.inj hs).symm⟩
        · intro x _
          rw [hafter]
          rfl
      · constructor
        · intro session hs
          rw [hafter] at hs
          cases hs
        · intro x hx
          rcases latest_concat.mp hx with ⟨haccepts, _⟩ | ⟨_, hnone⟩
          · exact (hnoaccept haccepts).elim
          · exact (hnone (.inr hcloses)).elim
      · rw [hafter]
        constructor
        · intro session hs
          obtain ⟨x, hx, hopened⟩ := ih.1 session hs
          exact ⟨x, latest_concat.mpr (.inr ⟨hx, not_or.mpr ⟨hnoaccept, hnoclose⟩⟩), hopened⟩
        · intro x hx
          rcases latest_concat.mp hx with ⟨haccepts, _⟩ | ⟨hx', _⟩
          · exact (hnoaccept haccepts).elim
          · exact ih.2 x hx'

/-- The modes of a negotiation are ones the responder can speak. -/
theorem negotiated_modes (srv : LdpServer) (config : Value) :
    ((srv.negotiated config).mode = .text ∨ ((srv.negotiated config).mode.isImplemented = true ∧
      (srv.negotiated config).mode ∈ srv.identity.supportedPayloadModes)) ∧
    ∀ m ∈ (srv.negotiated config).fallbackChain, m.isImplemented = true ∧
      m ∈ srv.identity.supportedPayloadModes ∧
      m.modeNumber < (srv.negotiated config).mode.modeNumber := by
  unfold LdpServer.negotiated
  constructor
  · rw [negotiatePayloadMode_mode]
    rcases agreedMode_cases PayloadMode.isImplemented [LdpServer.requestedMode config, .text]
      srv.identity.supportedPayloadModes with htext | ⟨himpl, _, hsupported⟩
    · exact .inl htext
    · exact .inr ⟨himpl, hsupported⟩
  · intro m hm
    have hmem := mem_fallbackChain.mp hm
    exact ⟨hmem.2.1, hmem.2.2.1, hmem.2.2.2⟩

/-- After every sequence of messages the sessions held are exactly the accepted
and unclosed proposals, each with what its latest acceptance settled. -/
theorem sessions_are_ledger (hmac : Hmac) (srv : LdpServer) (log : List Exchange)
    (s : ServerState) (h : Serves hmac srv log s) (k : String) :
    ((s.sessions.lookup k).isSome = true ↔ ∃ x, Unclosed log k x) ∧
    ∀ session, s.sessions.lookup k = some session →
      session.sessionId = k ∧ session.state = .active ∧
      (session.payload.mode = .text ∨ (session.payload.mode.isImplemented = true ∧
        session.payload.mode ∈ srv.identity.supportedPayloadModes)) ∧
      (∀ m ∈ session.payload.fallbackChain, m.isImplemented = true ∧
        m ∈ srv.identity.supportedPayloadModes ∧ m.modeNumber < session.payload.mode.modeNumber) ∧
      ∃ x config, Unclosed log k x ∧ x.envelope.body = .sessionPropose config ∧
        session.remoteDelegateId = x.envelope.from_ ∧
        srv.identity.trustDomain.trusts
          (((config.get "trust_domain").bind Value.asStr).getD "unknown") = true := by
  have hledger := serves_ledger h k
  constructor
  · constructor
    · intro hsome
      obtain ⟨session, hs⟩ := Option.isSome_iff_exists.mp hsome
      obtain ⟨x, hx, _⟩ := hledger.1 session hs
      exact ⟨x, hx⟩
    · intro hx
      obtain ⟨x, hx⟩ := hx
      exact hledger.2 x hx
  · intro session hs
    obtain ⟨x, hx, config, opened, hb, ht, rfl⟩ := hledger.1 session hs
    have hmodes := negotiated_modes srv config
    have hsession : x.envelope.sessionId = k := by
      obtain ⟨_, _, _, haccepts, _⟩ := hx
      exact haccepts.1
    exact ⟨hsession, rfl, hmodes.1, hmodes.2, x, config, hx, hb, rfl, ht⟩

/-- A proposal from the echo server's own domain. -/
def ownProposal : LdpEnvelope :=
  LdpEnvelope.new "m1" "t0" "s1" "ldp:a" "ldp:b"
    (.sessionPropose (.object [("trust_domain", .string "test-domain")])) .text

theorem sessions_are_ledger_ownProposal :
    ∃ x, Unclosed [SessionGating.echoExchange submissionMac (LdpServer.echoServer "ldp:b" "B")
      .empty ownProposal] "s1" x := by
  have hserves := SessionGating.serves_echoExchange
    (.start : Serves submissionMac (LdpServer.echoServer "ldp:b" "B") [] .empty) ownProposal
  exact (sessions_are_ledger _ _ _ _ hserves "s1").1.mp rfl

end LdpProtocol.SessionLedger
