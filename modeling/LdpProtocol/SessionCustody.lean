import LdpProtocol.Handshake
import LdpProtocol.MonitoredCalls
import LdpProtocol.SessionCache

/-!
# What a call does with sessions

One session manager and one server, no signing and no lost message. A message is
sent, handled and answered in one step: before it nothing has changed, and its
answer may be looked at as late as the caller's next step. A call proposes only ids
that it drew, caches what it opened and closes what it took out of the cache.
-/
namespace LdpProtocol.SessionCustody
open InteractivePrograms InterferedRuns ConcurrentCalls MonitoredCalls
open InteractivePrograms.Program (call_bind)
open JsonValues PayloadModes MessageTypes EnvelopeSigning SessionManager ServerHandlers
open LinkedServer LinkedSessionManager
open SessionCache (Operation)

abbrev State := Linked ServerState

/-- The server is the only peer, and every id that is drawn is new. -/
def Meaning (hmac : Hmac) (srv : LdpServer) :
    InterferedRuns.Meaning ClientCall ClientCall.Answer State
  | .newV4, w, a, w' => a ∉ w.drawn ∧ w' = { w with drawn := a :: w.drawn }
  | q, w, a, w' => LinkedSessionManager.Meaning (Serves hmac srv fun _ => Quiet) False q w a w'

/-- What a call has in hand: ids that it drew and has not proposed, and the session
it is about to cache or to close. -/
structure Hands where
  unused : List String := []
  carried : Option String := none

def accepted : Except String LdpEnvelope → Bool
  | .ok back =>
      match back.body with
      | .sessionAccept _ _ => true
      | _ => false
  | .error _ => false

/-- The monitor of one call. -/
def custody (config : LdpAdapterConfig) : Monitor ClientCall ClientCall.Answer Hands where
  after h ev :=
    match ev with
    | ⟨.newV4, id⟩ => { h with unused := id :: h.unused }
    | ⟨.sendMessage _ e, answer⟩ =>
        match e.body with
        | .sessionPropose _ => ⟨h.unused.filter (· ≠ e.sessionId),
            if accepted answer then some e.sessionId else none⟩
        | .sessionClose _ => { h with carried := none }
        | _ => h
    | ⟨.insertSession _ _, _⟩ => { h with carried := none }
    | ⟨.removeSession _, some session⟩ => { h with carried := some session.sessionId }
    | _ => h
  allows h ev :=
    match ev.1 with
    | .sendMessage _ e =>
        match e.body with
        | .hello _ _ => True
        | .sessionPropose _ => e.from_ = config.delegateId ∧ e.sessionId ∈ h.unused ∧
            h.carried = none
        | .sessionClose _ => h.carried = some e.sessionId
        | _ => False
    | .insertSession _ session => h.carried = some session.sessionId
    | .removeSession _ => h.carried = none
    | _ => True
  expects ev :=
    match ev with
    | ⟨.sendMessage _ e, .ok back⟩ => ∀ proposed id mode, e.body = .sessionPropose proposed →
        back.body = .sessionAccept id mode → id = e.sessionId
    | _ => True

section Programs
variable {hmac : Hmac} {config : LdpAdapterConfig} {url : String} {h : Hands}

theorem newEnvelope_obeys {sessionId from_ to_ : String} {body : LdpMessageBody}
    {payloadMode : PayloadMode} :
    (custody config).Obeys (newEnvelope sessionId from_ to_ body payloadMode) h fun h' r =>
      ∃ e, r = .ok e ∧ e.sessionId = sessionId ∧ e.from_ = from_ ∧ e.body = body ∧
        h'.carried = h.carried ∧ h.unused ⊆ h'.unused := by
  intro messageId _
  refine ⟨trivial, ?_⟩
  intro timestamp _
  exact ⟨trivial, _, rfl, rfl, rfl, rfl, rfl, List.subset_cons_self _ _⟩

/-- What is signed stays the message it is. -/
theorem sendSigned_obeys {e : LdpEnvelope} {post : Hands → Except String LdpEnvelope → Prop}
    (hpost : ∀ answer, (custody config).expects
        ⟨.sendMessage url (signIfConfigured hmac config.signingSecret e), answer⟩ →
      (custody config).allows h
        ⟨.sendMessage url (signIfConfigured hmac config.signingSecret e), answer⟩ ∧
      post ((custody config).after h
        ⟨.sendMessage url (signIfConfigured hmac config.signingSecret e), answer⟩) answer) :
    (custody config).Obeys (sendSigned hmac config url e) h post := by
  intro answer ha
  refine ⟨(hpost answer ha).1, ?_⟩
  cases answer with
  | ok back => exact (hpost _ ha).2
  | error text => exact (hpost _ ha).2

/-- An acceptance leaves the proposed session in hand, anything else nothing. -/
def Proposed (id : String) (h : Hands) (r : Except String LdpEnvelope) : Prop :=
  (h.carried = none ∧ accepted r = false) ∨
  ∃ back mode, r = .ok back ∧ back.body = .sessionAccept id mode ∧ h.carried = some id

theorem sendProposal_obeys {e : LdpEnvelope} {proposed : Value} (hcarried : h.carried = none)
    (hbody : e.body = .sessionPropose proposed) (hfrom : e.from_ = config.delegateId)
    (hunused : e.sessionId ∈ h.unused) :
    (custody config).Obeys (sendSigned hmac config url e) h (Proposed e.sessionId) := by
  have hsent : (signIfConfigured hmac config.signingSecret e).body = .sessionPropose proposed :=
    (signIfConfigured_body ..).trans hbody
  apply sendSigned_obeys
  intro answer hexpected
  constructor
  · simp only [custody, hsent, signIfConfigured_sessionId, signIfConfigured_from]
    exact ⟨hfrom, hunused, hcarried⟩
  · simp only [custody, hsent, signIfConfigured_sessionId]
    cases hanswer : accepted answer with
    | false => exact .inl ⟨rfl, hanswer⟩
    | true =>
        cases answer with
        | error text => cases hanswer
        | ok back =>
            cases hback : back.body with
            | sessionAccept id mode =>
                -- an acceptance carries the proposed id
                have hsame := hexpected _ id mode hsent hback
                rw [signIfConfigured_sessionId] at hsame
                rw [hsame] at hback
                exact .inr ⟨back, mode, rfl, hback, rfl⟩
            | _ => simp [accepted, hback] at hanswer

theorem finishHandshake_obeys {id remoteDelegateId : String} {negotiated : NegotiatedPayload}
    {answer : LdpEnvelope} (hproposed : Proposed id h (.ok answer)) :
    (custody config).Obeys (finishHandshake config url remoteDelegateId negotiated answer) h
      fun h' r => h'.carried = r.toOption.map LdpSession.sessionId := by
  unfold finishHandshake
  rcases hproposed with ⟨hempty, hrefused⟩ | ⟨back, mode, hr, hbody, hopened⟩
  · cases hb : answer.body with
    | sessionAccept id mode => simp [accepted, hb] at hrefused
    | sessionReject reason error =>
        cases error with
        | none => exact hempty
        | some err => exact hempty
    | _ => exact hempty
  · cases hr
    rw [hbody]
    intro now _
    exact ⟨trivial, hopened⟩

/-- The handshake ends with the session it opened in hand, or with nothing. -/
theorem proposeSession_obeys (hcarried : h.carried = none) (remoteDelegateId : String)
    (remote : List PayloadMode) :
    (custody config).Obeys (proposeSession hmac config url remoteDelegateId remote) h
      fun h' r => h'.carried = r.toOption.map LdpSession.sessionId := by
  unfold proposeSession SessionManager.newV4
  dsimp only
  rw [call_bind]
  intro sessionId _
  refine ⟨trivial, ?_⟩
  apply newEnvelope_obeys.bind_ok
  intro h₁ propose hmade
  obtain ⟨rfl, hfrom, hbody, hkept, hunused⟩ := hmade
  apply (sendProposal_obeys (hkept.trans hcarried) hbody hfrom (hunused List.mem_cons_self)).bind
  · intro h₂ answer hproposed
    exact finishHandshake_obeys hproposed
  · intro h₂ error hproposed
    rcases hproposed with ⟨hempty, _⟩ | ⟨back, mode, hr, _⟩
    · exact hempty
    · cases hr

theorem establishSession_obeys (hcarried : h.carried = none) :
    (custody config).Obeys (establishSession hmac config url) h
      fun h' r => h'.carried = r.toOption.map LdpSession.sessionId := by
  unfold establishSession
  apply newEnvelope_obeys.bind_ok
  intro h₁ hello hmade
  obtain ⟨_, _, hbody, hkept, _⟩ := hmade
  have hsent : (signIfConfigured hmac config.signingSecret hello).body =
      .hello config.delegateId config.session.preferredPayloadModes :=
    (signIfConfigured_body ..).trans hbody
  have hsend : (custody config).Obeys (sendSigned hmac config url hello) h₁ fun h' _ =>
      h'.carried = none := by
    apply sendSigned_obeys
    intro answer _
    simp only [custody, hsent]
    exact ⟨trivial, hkept.trans hcarried⟩
  apply hsend.bind
  · intro h₂ manifest hempty
    cases hb : manifest.body with
    | capabilityManifest capabilities => exact proposeSession_obeys hempty _ _
    | _ => exact hempty
  · intro h₂ error hempty
    exact hempty

/-- With nothing in hand before, a call ends with nothing in hand. -/
abbrev Returns (config : LdpAdapterConfig) {α : Type} (p : ClientProgram α) : Prop :=
  ∀ h : Hands, h.carried = none → (custody config).Obeys p h fun h' _ => h'.carried = none

theorem returns_pure {α : Type} (a : α) : Returns config (pure a : ClientProgram α) :=
  fun _ hcarried => hcarried

theorem Returns.bind {α β : Type} {p : ClientProgram α} {f : α → ClientProgram β}
    (hp : Returns config p) (hf : ∀ a, Returns config (f a)) : Returns config (p >>= f) := by
  intro h hcarried
  apply (hp h hcarried).bind
  · intro h₁ a hempty
    exact hf a h₁ hempty
  · intro h₁ error hempty
    exact hempty

theorem establishAndCache_returns : Returns config (establishAndCache hmac config url) := by
  intro h hcarried
  apply (establishSession_obeys hcarried).bind
  · intro h₁ session hopened _ _
    exact ⟨hopened, rfl⟩
  · intro h₁ error hempty
    exact hempty

theorem isActive_returns (session : LdpSession) : Returns config (isActive session) := by
  intro h hcarried
  unfold isActive
  split
  · intro now _
    exact ⟨trivial, hcarried⟩
  · exact hcarried

theorem getOrEstablish_returns : Returns config (getOrEstablish hmac config url) := by
  intro h hcarried cached _
  refine ⟨trivial, ?_⟩
  cases cached with
  | none => exact establishAndCache_returns h hcarried
  | some session =>
      refine (isActive_returns session).bind ?_ h hcarried
      intro active
      cases active with
      | true => exact returns_pure session
      | false => exact establishAndCache_returns

/-- What is taken out of the cache is closed. -/
theorem close_returns : Returns config (close config url) := by
  intro h hcarried removed _
  refine ⟨hcarried, ?_⟩
  cases removed with
  | none => exact hcarried
  | some session =>
      apply newEnvelope_obeys.bind_ok
      intro h₁ closeMsg hmade
      obtain ⟨hid, _, hbody, hkept, _⟩ := hmade
      intro answer _
      simp only [custody, hbody, hid]
      exact ⟨hkept, rfl⟩

theorem closeEach_returns (urls : List String) : Returns config (closeEach config urls) := by
  induction urls with
  | nil => exact returns_pure ()
  | cons url urls ih => exact close_returns.bind fun _ => ih

theorem program_returns (op : Operation) : Returns config (op.program hmac config) := by
  cases op with
  | getOrEstablish url => exact getOrEstablish_returns.bind fun _ => returns_pure ()
  | touch url =>
      intro h hcarried _ _
      exact ⟨trivial, hcarried⟩
  | close url => exact close_returns
  | closeAll =>
      intro h hcarried urls _
      exact ⟨trivial, closeEach_returns urls h hcarried⟩

end Programs

section Messages
variable {hmac : Hmac} {srv : LdpServer} {drawn : List String} {e : LdpEnvelope}
  {s t : ServerState} {answer : Except String LdpEnvelope}

theorem served_handled (hsrv : srv.signingSecret = none) (he : e.body.errors = [])
    {wire : Except String Value}
    (h : Serves hmac srv (fun _ => Quiet) drawn e.toValue s wire t) :
    ∃ inv outcome, ServerRuns.Handled srv e s inv t outcome ∧
      wire = outcome.map LdpEnvelope.toValue := by
  obtain ⟨tr, r, hrun, hwire⟩ := Handshake.served he h
  rcases ServerRuns.handleMessage_handled hrun with ⟨error, hsig, _⟩ | ⟨_, outcome, hd, hr⟩
  · unfold LdpServer.signatureError at hsig
    rw [hsrv] at hsig
    cases hsig
  · refine ⟨_, outcome, hd, ?_⟩
    rw [hwire, hr, hsrv]
    cases outcome <;> rfl

/-- A proposal is answered, and accepted exactly if the server now has the session. -/
theorem propose_exchanged (hsrv : srv.signingSecret = none) {proposed : Value}
    (hbody : e.body = .sessionPropose proposed)
    (h : Exchange (Serves hmac srv fun _ => Quiet) False drawn e s answer t) :
    (∃ back mode now, answer = .ok back ∧ back.body = .sessionAccept e.sessionId mode ∧
      t.sessions = s.sessions.insert e.sessionId (srv.proposedSession e proposed now)) ∨
    (accepted answer = false ∧ t = s) := by
  have herrors : e.body.errors = [] := by
    rw [hbody]
    rfl
  obtain ⟨back, rfl, hG⟩ := h.reliable (G := fun back t =>
    (∃ mode now, back.body = .sessionAccept e.sessionId mode ∧
      t.sessions = s.sessions.insert e.sessionId (srv.proposedSession e proposed now)) ∨
    (accepted (.ok back) = false ∧ t = s)) (by
      intro wire t hserved
      obtain ⟨inv, outcome, hd, hwire⟩ := served_handled hsrv herrors hserved
      cases hd with
      | @accept config opened messageId now hb ht =>
          rw [hbody] at hb
          cases hb
          refine ⟨_, _, hwire, LdpEnvelope.fromValue_toValue _ ?_, .inl ⟨_, opened, rfl, rfl⟩⟩
          simp [LdpServer.response, LdpEnvelope.new, LdpMessageBody.errors]
      | @reject config messageId now hb ht =>
          refine ⟨_, _, hwire, LdpEnvelope.fromValue_toValue _ ?_, .inr ⟨rfl, rfl⟩⟩
          simp [LdpServer.response, LdpEnvelope.new, LdpMessageBody.errors, LdpError.policy]
      | hello hb | submit hb | query _ hb | unknownTask hb | cancel hb | close hb =>
          rw [hbody] at hb
          cases hb
      | unhandled hu =>
          rw [hbody] at hu
          exact (hu (by simp [LdpMessageBody.tag])).elim)
  rcases hG with ⟨mode, now, hback, ht⟩ | hrefused
  · exact .inl ⟨back, mode, now, rfl, hback, ht⟩
  · exact .inr hrefused

/-- Any other message of the client's is handled too. -/
theorem message_exchanged (hsrv : srv.signingSecret = none) (herrors : e.body.errors = [])
    (h : Exchange (Serves hmac srv fun _ => Quiet) False drawn e s answer t) :
    ∃ inv outcome, ServerRuns.Handled srv e s inv t outcome := by
  have hserved : ∃ wire, Serves hmac srv (fun _ => Quiet) drawn e.toValue s wire t := by
    cases h with
    | answered hserved _ => exact ⟨_, hserved⟩
    | refused _ hserved => exact ⟨_, hserved⟩
    | unreadable _ hserved _ => exact ⟨_, hserved⟩
    | lost _ hfaulty => exact hfaulty.elim
    | unsent _ hfaulty => exact hfaulty.elim
  obtain ⟨wire, hserved⟩ := hserved
  obtain ⟨inv, outcome, hd, _⟩ := served_handled hsrv herrors hserved
  exact ⟨inv, outcome, hd⟩

theorem close_exchanged (hsrv : srv.signingSecret = none) {reason : Option String}
    (hbody : e.body = .sessionClose reason)
    (h : Exchange (Serves hmac srv fun _ => Quiet) False drawn e s answer t) :
    t.sessions = s.sessions.erase e.sessionId := by
  obtain ⟨inv, outcome, hd⟩ := message_exchanged hsrv (by rw [hbody]; rfl) h
  cases hd with
  | close => rfl
  | unhandled hu => exact (hu (by simp [hbody, LdpMessageBody.tag])).elim
  | hello hb | accept hb | reject hb | submit hb | query _ hb | unknownTask hb | cancel hb =>
      cases hbody.symm.trans hb

theorem hello_exchanged (hsrv : srv.signingSecret = none) {delegateId : String}
    {modes : List PayloadMode} (hbody : e.body = .hello delegateId modes)
    (h : Exchange (Serves hmac srv fun _ => Quiet) False drawn e s answer t) : t = s := by
  obtain ⟨inv, outcome, hd⟩ := message_exchanged hsrv (by rw [hbody]; rfl) h
  cases hd with
  | hello => rfl
  | unhandled hu => exact (hu (by simp [hbody, LdpMessageBody.tag])).elim
  | accept hb | reject hb | submit hb | query _ hb | unknownTask hb | cancel hb | close hb =>
      cases hbody.symm.trans hb

/-- An acceptance names the session that was proposed. -/
theorem meaning_expects {config : LdpAdapterConfig} (hsrv : srv.signingSecret = none)
    (q : ClientCall) (w : State) (a : q.Answer) (w' : State) (hm : Meaning hmac srv q w a w') :
    (custody config).expects ⟨q, a⟩ := by
  cases q with
  | sendMessage url e =>
      cases a with
      | error text => trivial
      | ok back =>
          intro proposed id mode hbody hback
          obtain ⟨p, hexchanged, _⟩ := hm
          rcases propose_exchanged hsrv hbody hexchanged with
            ⟨_, _, _, hok, haccept, _⟩ | ⟨hrefused, _⟩
          · cases hok
            rw [hback] at haccept
            cases haccept
            rfl
          · simp [accepted, hback] at hrefused
  | _ => trivial

end Messages

end LdpProtocol.SessionCustody
