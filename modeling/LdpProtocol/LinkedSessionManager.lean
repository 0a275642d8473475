import LdpProtocol.LinkedParties
import LdpProtocol.SessionManager

/-!
# The session manager and one peer

The client's questions, with its messages now answered by a peer that reads and
writes JSON. What a run of `getOrEstablish` does to the peer is at most one HELLO
and one SESSION_PROPOSE; `Handshake` says which, in what order, and what is made
of the answers. The peer is a parameter: it may be of either SDK.
-/
namespace LdpProtocol.LinkedSessionManager
open InteractivePrograms InterferedRuns LinkedParties Relation
open InteractivePrograms.Program (call_bind pure_eq)
open JsonValues PayloadModes DelegateIdentity MessageTypes EnvelopeSigning SessionManager

abbrev Trace := List (Event ClientCall ClientCall.Answer)

/-- How a peer answers a document, given the ids that no one else uses. -/
abbrev Peer (σ : Type) := List String → Value → σ → Except String Value → σ → Prop

abbrev Linked (σ : Type) := World ClientState String σ

abbrev Exchange {σ : Type} (serves : Peer σ) (faulty : Prop) :=
  Exchanged LdpEnvelope.toValue LdpEnvelope.fromValue serves faulty

/-- The client's maps are its own; an id it draws is noted as drawn. -/
def Meaning {σ : Type} (serves : Peer σ) (faulty : Prop) :
    InterferedRuns.Meaning ClientCall ClientCall.Answer (Linked σ)
  | .newV4, w, a, w' => w' = { w with drawn := a :: w.drawn }
  | .sendMessage _ e, w, a, w' =>
      ∃ p, Exchange serves faulty w.drawn e w.peer a p ∧ w' = { w with peer := p }
  | q, w, a, w' => ∃ c, ClientCall.Meaning q w.client a c ∧ w' = { w with client := c }

/-- The client's surroundings with an executable peer as its network. -/
def networked {σ : Type} (serve : Value → σ → Except String Value × σ) :
    (q : ClientCall) → Linked σ → q.Answer × Linked σ
  | .newV4, w => ("9f1c1f0e-6f7e-4a0b-9a55-0d6a3b1c2d4e",
      { w with drawn := "9f1c1f0e-6f7e-4a0b-9a55-0d6a3b1c2d4e" :: w.drawn })
  | .sendMessage _ e, w =>
      let served := serve e.toValue w.peer
      match served.1.toOption.bind LdpEnvelope.fromValue with
      | some back => (.ok back, { w with peer := served.2 })
      | none => (.error "LDP request failed", { w with peer := served.2 })
  | q, w => ((q.offline w.client).1, { w with client := (q.offline w.client).2 })

theorem networked_meaning {σ : Type} {serves : Peer σ}
    {serve : Value → σ → Except String Value × σ}
    (h : ∀ drawn document s, serves drawn document s (serve document s).1 (serve document s).2)
    (faulty : Prop) (q : ClientCall) (w : Linked σ) :
    Meaning serves faulty q w (networked serve q w).1 (networked serve q w).2 := by
  cases q with
  | newV4 => rfl
  | sendMessage url e =>
      have hserves := h w.drawn e.toValue w.peer
      refine ⟨(serve e.toValue w.peer).2, ?_, ?_⟩
      · cases hanswer : (serve e.toValue w.peer).1 with
        | error text =>
            rw [hanswer] at hserves
            simp only [networked, hanswer]
            exact .refused _ hserves
        | ok document =>
            rw [hanswer] at hserves
            simp only [networked, hanswer]
            cases hback : LdpEnvelope.fromValue document with
            | none => simpa [hback, Except.toOption] using .unreadable _ hserves hback
            | some back => simpa [hback, Except.toOption] using .answered hserves hback
      · unfold networked
        dsimp only
        split <;> rfl
  | _ => exact ⟨_, ClientCall.offline_meaning _ _, rfl⟩

/-- The envelopes that came back. -/
def response (ev : Event ClientCall ClientCall.Answer) : Option LdpEnvelope :=
  match ev with
  | ⟨.sendMessage _ _, .ok back⟩ => some back
  | _ => none

def responses (tr : Trace) : List LdpEnvelope := tr.filterMap response

section
variable (hmac : Hmac) (config : LdpAdapterConfig) (url : String)

def helloMessage (messageId timestamp : String) : LdpEnvelope :=
  signIfConfigured hmac config.signingSecret (LdpEnvelope.new messageId timestamp ""
    config.delegateId url (.hello config.delegateId config.session.preferredPayloadModes) .text)

def proposeMessage (messageId timestamp sessionId remoteDelegateId : String)
    (mode : PayloadMode) : LdpEnvelope :=
  signIfConfigured hmac config.signingSecret (LdpEnvelope.new messageId timestamp sessionId
    config.delegateId remoteDelegateId (.sessionPropose (proposeConfig config mode)) .text)

/-- The client's own negotiation, against the modes the manifest names. -/
def clientNegotiated (capabilities : Value) : NegotiatedPayload :=
  negotiatePayloadMode config.session.preferredPayloadModes (remoteModes capabilities)

/-- What becomes of the answer to the proposal: a session for an acceptance, an
error for everything else. -/
inductive Finished (remoteDelegateId : String) (negotiated : NegotiatedPayload) :
    Except String LdpEnvelope → Except String LdpSession → Prop
  | accepted {answer : LdpEnvelope} {acceptedId : String} {mode : PayloadMode} (now : ℤ) :
      answer.body = .sessionAccept acceptedId mode →
      Finished remoteDelegateId negotiated (.ok answer)
        (.ok (establishedSession config url acceptedId remoteDelegateId negotiated now))
  | refused {answer : Except String LdpEnvelope} (error : String) :
      (∀ back acceptedId mode, answer = .ok back → back.body ≠ .sessionAccept acceptedId mode) →
      Finished remoteDelegateId negotiated answer (.error error)

variable {σ : Type} (serves : Peer σ) (faulty : Prop)
  (tasks : ClientState → ClientState → Prop) (others : List String → σ → σ → Prop)

/-- One handshake: the answered envelopes and the outcome. -/
inductive Handshake (w w' : Linked σ) : List LdpEnvelope → Except String LdpSession → Prop
  | greeted {v : Linked σ} {p : σ} {messageId timestamp error : String}
      {answer : Except String LdpEnvelope} : Moved tasks others w v →
      Exchange serves faulty v.drawn (helloMessage hmac config url messageId timestamp) v.peer
        answer p →
      (∀ manifest capabilities, answer = .ok manifest →
        manifest.body ≠ .capabilityManifest capabilities) →
      Moved tasks others { v with peer := p } w' →
      Handshake w w' answer.toOption.toList (.error error)
  | proposed {v₁ v₂ : Linked σ} {p₁ p₂ : σ} {manifest : LdpEnvelope} {capabilities : Value}
      {messageId₁ timestamp₁ messageId₂ timestamp₂ sessionId : String}
      {answer : Except String LdpEnvelope} {result : Except String LdpSession} :
      Moved tasks others w v₁ →
      Exchange serves faulty v₁.drawn (helloMessage hmac config url messageId₁ timestamp₁) v₁.peer
        (.ok manifest) p₁ →
      manifest.body = .capabilityManifest capabilities →
      Moved tasks others { v₁ with peer := p₁ } v₂ → sessionId ∈ v₂.drawn →
      Exchange serves faulty v₂.drawn (proposeMessage hmac config messageId₂ timestamp₂ sessionId
        manifest.from_ (clientNegotiated config capabilities).mode) v₂.peer answer p₂ →
      Moved tasks others { v₂ with peer := p₂ } w' →
      Finished config url manifest.from_ (clientNegotiated config capabilities) answer result →
      Handshake w w' (manifest :: answer.toOption.toList) result

end

section
variable {hmac : Hmac} {config : LdpAdapterConfig} {url : String} {σ : Type} {serves : Peer σ}
  {faulty : Prop} {tasks : ClientState → ClientState → Prop} {others : List String → σ → σ → Prop}
  {w w' : Linked σ} {tr : Trace}

abbrev LinkedRun (serves : Peer σ) (faulty : Prop) (tasks : ClientState → ClientState → Prop)
    (others : List String → σ → σ → Prop) {α : Type} (p : ClientProgram α) (w : Linked σ)
    (tr : Trace) (w' : Linked σ) (r : Except String α) : Prop :=
  Run (Meaning serves faulty) (Interference tasks others) p w tr w' r

/-- Reading a clock or the cache moves nothing. -/
theorem ask_clock {α : Type} {next : ℤ → ClientProgram α} {r : Except String α}
    (h : LinkedRun serves faulty tasks others (.ask .utcNow next) w tr w' r) :
    ∃ now v tr₁, Moved tasks others w v ∧
      LinkedRun serves faulty tasks others (next now) v tr₁ w' r ∧
      responses tr = responses tr₁ := by
  obtain ⟨v, now, v', tr₁, hmoved, hm, hrun, rfl⟩ := moved_ask h
  obtain ⟨c, hc, rfl⟩ := hm
  have hsame : c = v.client := hc
  rw [hsame] at hrun
  exact ⟨now, v, tr₁, hmoved, hrun, rfl⟩

theorem ask_newV4 {α : Type} {next : String → ClientProgram α} {r : Except String α}
    (h : LinkedRun serves faulty tasks others (.ask .newV4 next) w tr w' r) :
    ∃ id v tr₁, Moved tasks others w v ∧ id ∈ v.drawn ∧
      LinkedRun serves faulty tasks others (next id) v tr₁ w' r ∧ responses tr = responses tr₁ := by
  obtain ⟨v, id, v', tr₁, hmoved, hm, hrun, rfl⟩ := moved_ask h
  have hv : v' = { v with drawn := id :: v.drawn } := hm
  refine ⟨id, v', tr₁, ?_, ?_, hrun, rfl⟩
  · rw [hv]
    exact hmoved.trans (moved_draw v id)
  · rw [hv]
    exact List.mem_cons_self

theorem newEnvelope_run {α : Type} {sessionId from_ to_ : String} {body : LdpMessageBody}
    {payloadMode : PayloadMode} {f : LdpEnvelope → ClientProgram α} {r : Except String α}
    (h : LinkedRun serves faulty tasks others
      (newEnvelope sessionId from_ to_ body payloadMode >>= f) w tr w' r) :
    ∃ messageId timestamp v tr₁, Moved tasks others w v ∧
      LinkedRun serves faulty tasks others
        (f (LdpEnvelope.new messageId timestamp sessionId from_ to_ body payloadMode)) v tr₁ w' r ∧
      responses tr = responses tr₁ := by
  unfold newEnvelope SessionManager.newV4 SessionManager.utcNowRfc3339 at h
  simp only [call_bind, pure_eq, Program.ask_bind, Program.pure_bind_eq] at h
  obtain ⟨messageId, v, tr₁, hv, _, hrun, htr⟩ := ask_newV4 h
  obtain ⟨v₁, timestamp, v₂, tr₂, hv₁, hm, hrun₂, rfl⟩ := moved_ask hrun
  obtain ⟨c, hc, rfl⟩ := hm
  have hsame : c = v₁.client := hc
  rw [hsame] at hrun₂
  exact ⟨messageId, timestamp, v₁, tr₂, hv.trans hv₁, hrun₂, htr⟩

/-- A signed message is exchanged; an error ends the caller. -/
theorem sendSigned_run {α : Type} {e : LdpEnvelope} {f : LdpEnvelope → ClientProgram α}
    {r : Except String α}
    (h : LinkedRun serves faulty tasks others (sendSigned hmac config url e >>= f) w tr w' r) :
    ∃ v p answer, Moved tasks others w v ∧
      Exchange serves faulty v.drawn (signIfConfigured hmac config.signingSecret e) v.peer
        answer p ∧
      ((∃ error, answer = .error error ∧ r = .error error ∧ responses tr = [] ∧
        Moved tasks others { v with peer := p } w') ∨
      ∃ back tr₁, answer = .ok back ∧ responses tr = back :: responses tr₁ ∧
        LinkedRun serves faulty tasks others (f back) { v with peer := p } tr₁ w' r) := by
  unfold sendSigned SessionManager.sendMessage at h
  simp only [call_bind, Program.ask_bind] at h
  obtain ⟨v, answer, v', tr₁, hv, hm, hrun, rfl⟩ := moved_ask h
  obtain ⟨p, hexchange, rfl⟩ := hm
  refine ⟨v, p, answer, hv, hexchange, ?_⟩
  cases answer with
  | error error =>
      obtain ⟨hmoved, rfl, rfl⟩ := moved_throw hrun
      exact .inl ⟨error, rfl, rfl, rfl, hmoved⟩
  | ok back => exact .inr ⟨back, tr₁, rfl, rfl, hrun⟩

theorem finishHandshake_run {remoteDelegateId : String} {negotiated : NegotiatedPayload}
    {answer : LdpEnvelope} {r : Except String LdpSession}
    (h : LinkedRun serves faulty tasks others
      (finishHandshake config url remoteDelegateId negotiated answer) w tr w' r) :
    Moved tasks others w w' ∧ responses tr = [] ∧
      Finished config url remoteDelegateId negotiated (.ok answer) r := by
  unfold finishHandshake at h
  have hrefused : ∀ error, (∀ acceptedId mode, answer.body ≠ .sessionAccept acceptedId mode) →
      LinkedRun serves faulty tasks others (.throw error) w tr w' r →
      Moved tasks others w w' ∧ responses tr = [] ∧
        Finished config url remoteDelegateId negotiated (.ok answer) r := by
    intro error hne hrun
    obtain ⟨hmoved, rfl, rfl⟩ := moved_throw hrun
    refine ⟨hmoved, rfl, .refused error ?_⟩
    intro back acceptedId mode heq
    cases heq
    exact hne acceptedId mode
  cases hb : answer.body with
  | sessionAccept acceptedId mode =>
      rw [hb] at h
      obtain ⟨now, v, tr₁, hv, hrun, htr⟩ := ask_clock h
      obtain ⟨hmoved, rfl, rfl⟩ := moved_pure hrun
      exact ⟨hv.trans hmoved, htr, .accepted now hb⟩
  | sessionReject reason error =>
      rw [hb] at h
      cases error with
      | none => exact hrefused _ (by simp [hb]) h
      | some err => exact hrefused _ (by simp [hb]) h
  | _ =>
      rw [hb] at h
      exact hrefused _ (by simp [hb]) h

theorem proposeSession_run {remoteDelegateId : String} {remote : List PayloadMode}
    {r : Except String LdpSession}
    (h : LinkedRun serves faulty tasks others
      (proposeSession hmac config url remoteDelegateId remote) w tr w' r) :
    ∃ v sessionId messageId timestamp p answer, Moved tasks others w v ∧ sessionId ∈ v.drawn ∧
      Exchange serves faulty v.drawn (proposeMessage hmac config messageId timestamp sessionId
        remoteDelegateId
        (negotiatePayloadMode config.session.preferredPayloadModes remote).mode) v.peer answer p ∧
      Moved tasks others { v with peer := p } w' ∧ responses tr = answer.toOption.toList ∧
      Finished config url remoteDelegateId
        (negotiatePayloadMode config.session.preferredPayloadModes remote) answer r := by
  unfold proposeSession SessionManager.newV4 at h
  simp only [call_bind] at h
  obtain ⟨sessionId, v, tr₁, hv, hid, hrun, htr⟩ := ask_newV4 h
  obtain ⟨messageId, timestamp, v₁, tr₂, hv₁, hrun₁, htr₁⟩ := newEnvelope_run hrun
  obtain ⟨v₂, p, answer, hv₂, hexchange, hrest⟩ := sendSigned_run hrun₁
  rw [htr, htr₁]
  refine ⟨v₂, sessionId, messageId, timestamp, p, answer, (hv.trans hv₁).trans hv₂,
    hv₂.drawn (hv₁.drawn hid), hexchange, ?_⟩
  rcases hrest with ⟨error, rfl, rfl, hnone, hmoved⟩ | ⟨back, tr₃, rfl, hone, hrun₃⟩
  · exact ⟨hmoved, hnone, .refused error fun _ _ _ heq => by cases heq⟩
  · obtain ⟨hmoved, hnone, hfinished⟩ := finishHandshake_run hrun₃
    rw [hnone] at hone
    exact ⟨hmoved, hone, hfinished⟩

theorem establishSession_run {r : Except String LdpSession}
    (h : LinkedRun serves faulty tasks others (establishSession hmac config url) w tr w' r) :
    Handshake hmac config url serves faulty tasks others w w' (responses tr) r := by
  unfold establishSession at h
  obtain ⟨messageId₁, timestamp₁, v, tr₁, hv, hrun, htr⟩ := newEnvelope_run h
  rw [htr]
  obtain ⟨v₁, p₁, answer, hv₁, hexchange, hrest⟩ := sendSigned_run hrun
  rcases hrest with ⟨error, rfl, rfl, hnone, hmoved⟩ | ⟨manifest, tr₂, rfl, hone, hrun₂⟩
  · rw [hnone]
    exact .greeted (hv.trans hv₁) hexchange (fun _ _ heq => by cases heq) hmoved
  · rw [hone]
    cases hb : manifest.body with
    | capabilityManifest capabilities =>
        simp only [hb] at hrun₂
        obtain ⟨v₂, sessionId, messageId₂, timestamp₂, p₂, answer, hv₂, hid, hexchange₂, hmoved,
          hone₂, hfinished⟩ := proposeSession_run hrun₂
        rw [hone₂]
        exact .proposed (hv.trans hv₁) hexchange hb hv₂ hid hexchange₂ hmoved hfinished
    | _ =>
        simp only [hb] at hrun₂
        obtain ⟨hmoved, rfl, rfl⟩ := moved_throw hrun₂
        exact .greeted (hv.trans hv₁) hexchange
          (fun _ _ heq hbody => by
            cases heq
            rw [hb] at hbody
            cases hbody) hmoved

theorem establishAndCache_run {r : Except String LdpSession}
    (h : LinkedRun serves faulty tasks others (establishAndCache hmac config url) w tr w' r) :
    ∃ v, Handshake hmac config url serves faulty tasks others w v (responses tr) r ∧
      ReflTransGen (Respecting others v.drawn) v.peer w'.peer ∧
      ∀ error, r = .error error → v = w' := by
  unfold establishAndCache SessionManager.insertSession at h
  rcases h.of_bind with ⟨session, v, tr₁, tr₂, hrun, hrest, rfl⟩ | ⟨error, hrun, rfl⟩
  · simp only [call_bind, pure_eq] at hrest
    obtain ⟨v₁, _, v₂, tr₃, hv, hm, hrun₂, rfl⟩ := moved_ask hrest
    obtain ⟨c, _, rfl⟩ := hm
    obtain ⟨hmoved, rfl, rfl⟩ := moved_pure hrun₂
    have hresponses : responses (tr₁ ++ [⟨.insertSession url session, ()⟩]) = responses tr₁ := by
      unfold responses
      rw [List.filterMap_append]
      exact List.append_nil _
    rw [hresponses]
    exact ⟨v, establishSession_run hrun, hv.peer.trans (Respecting.mono hv.drawn hmoved.peer),
      fun _ heq => by cases heq⟩
  · exact ⟨w', establishSession_run hrun, .refl, fun _ _ => rfl⟩

/-- A run that gets an answer from the peer runs one handshake and nothing else
that concerns the peer. -/
theorem getOrEstablish_run {r : Except String LdpSession}
    (h : LinkedRun serves faulty tasks others (getOrEstablish hmac config url) w tr w' r)
    (hr : responses tr ≠ []) :
    ∃ u v, Moved tasks others w u ∧
      Handshake hmac config url serves faulty tasks others u v (responses tr) r ∧
      ReflTransGen (Respecting others v.drawn) v.peer w'.peer ∧
      ∀ error, r = .error error → v = w' := by
  unfold getOrEstablish SessionManager.getSession at h
  simp only [call_bind] at h
  obtain ⟨u, cached, u', tr₁, hu, hm, hrun, rfl⟩ := moved_ask h
  obtain ⟨c, ⟨_, hc⟩, rfl⟩ := hm
  rw [hc] at hrun
  have hresponses : responses (⟨.getSession url, cached⟩ :: tr₁) = responses tr₁ := rfl
  rw [hresponses] at hr ⊢
  cases cached with
  | none =>
      obtain ⟨v, hv⟩ := establishAndCache_run hrun
      exact ⟨u, v, hu, hv⟩
  | some session =>
      simp only [isActive] at hrun
      split at hrun
      · simp only [utcNow, call_bind, pure_eq, Program.ask_bind, Program.pure_bind_eq] at hrun
        obtain ⟨now, u₁, tr₂, hu₁, hrun₁, htr⟩ := ask_clock hrun
        rw [htr] at hr ⊢
        split at hrun₁
        · obtain ⟨_, rfl, _⟩ := moved_pure hrun₁
          exact (hr rfl).elim
        · obtain ⟨v, hv⟩ := establishAndCache_run hrun₁
          exact ⟨u₁, v, hu.trans hu₁, hv⟩
      · simp only [pure_eq, Program.pure_bind_eq, Bool.false_eq_true, if_false] at hrun
        obtain ⟨v, hv⟩ := establishAndCache_run hrun
        exact ⟨u, v, hu, hv⟩

end
end LdpProtocol.LinkedSessionManager
