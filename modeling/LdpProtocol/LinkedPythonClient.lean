import LdpProtocol.LinkedParties
import LdpProtocol.PythonClient

/-!
# The Python client and one peer

The client's requests, answered by a peer that reads and writes JSON and serves
one identity card. A run of `establish_session` makes one HELLO and at most one
SESSION_PROPOSE; `Handshake` says what is made of the answers. The peer may be of
either SDK.
-/
namespace LdpProtocol.LinkedPythonClient
open InteractivePrograms InterferedRuns LinkedParties Relation
open InteractivePrograms.Program (call_bind pure_eq ask_bind pure_bind_eq)
open JsonValues PayloadModes EnvelopeSigning PythonMessages PythonSigning PythonIdentity
open PythonClient

abbrev Trace := List (Event ClientCall ClientCall.Answer)

abbrev Peer (σ : Type) := List String → Value → σ → Except String Value → σ → Prop

abbrev Linked (σ : Type) := World Sessions String σ

abbrev Exchange {σ : Type} (serves : Peer σ) (faulty : Prop) :=
  Exchanged (id : Value → Value) some serves faulty

def Meaning {σ : Type} (serves : Peer σ) (card : Value) (registered : List PayloadMode)
    (faulty : Prop) : InterferedRuns.Meaning ClientCall ClientCall.Answer (Linked σ)
  | .uuid4, w, a, w' => w' = { w with drawn := a :: w.drawn }
  | .registeredModes, w, a, w' => a = registered ∧ w' = w
  | .postMessage _ document, w, a, w' =>
      ∃ p, Exchange serves faulty w.drawn document w.peer a p ∧ w' = { w with peer := p }
  | .getIdentity _, w, a, w' => (a = .ok card ∨ faulty ∧ ∃ text, a = .error text) ∧ w' = w
  | .setSession url session, w, _, w' => w' = { w with client := w.client.insert url session }
  | _, w, _, w' => w' = w

/-- The client's surroundings with an executable peer and no registered codec. -/
def networked {σ : Type} (serve : Value → σ → Except String Value × σ) (card : Value)
    (made : Factories) : (q : ClientCall) → Linked σ → q.Answer × Linked σ
  | .uuid4, w => ("9f1c1f0e-6f7e-4a0b-9a55-0d6a3b1c2d4e",
      { w with drawn := "9f1c1f0e-6f7e-4a0b-9a55-0d6a3b1c2d4e" :: w.drawn })
  | .isoNow, w => ("1970-01-01T00:00:00+00:00", w)
  | .utcNow, w => (0, w)
  | .registeredModes, w => ([], w)
  | .defaults, w => (made, w)
  | .postMessage _ document, w =>
      ((serve document w.peer).1, { w with peer := (serve document w.peer).2 })
  | .getIdentity _, w => (.ok card, w)
  | .setSession url session, w => ((), { w with client := w.client.insert url session })

theorem networked_meaning {σ : Type} {serves : Peer σ}
    {serve : Value → σ → Except String Value × σ}
    (h : ∀ drawn document s, serves drawn document s (serve document s).1 (serve document s).2)
    (card : Value) (made : Factories) (faulty : Prop) (q : ClientCall) (w : Linked σ) :
    Meaning serves card [] faulty q w (networked serve card made q w).1
      (networked serve card made q w).2 := by
  cases q with
  | postMessage url document =>
      have hserves := h w.drawn document w.peer
      refine ⟨(serve document w.peer).2, ?_, rfl⟩
      dsimp only [networked]
      cases hanswer : (serve document w.peer).1 with
      | error text =>
          rw [hanswer] at hserves
          exact .refused text hserves
      | ok answer =>
          rw [hanswer] at hserves
          exact .answered hserves rfl
  | registeredModes => exact ⟨rfl, rfl⟩
  | getIdentity => exact ⟨.inl rfl, rfl⟩
  | _ => rfl

/-- What the client makes of an answer to a message. -/
inductive Read : Except String Value → Option LdpEnvelope → Prop
  | read {made : Factories} {document : Value} {back : LdpEnvelope} :
      LdpEnvelope.modelValidate made document = some back → Read (.ok document) (some back)
  | unanswered (text : String) : Read (.error text) none
  | invalid {made : Factories} {document : Value} :
      LdpEnvelope.modelValidate made document = none → Read (.ok document) none

section
variable (client : LdpClient) (hmac : Hmac) (url : String)

def helloMessage (messageId timestamp : String) (advertised : List PayloadMode) : LdpEnvelope :=
  PythonSigning.signIfConfigured hmac client.signingSecret (LdpEnvelope.create messageId timestamp
    "" client.delegateId url (.hello client.delegateId advertised) .text)

def proposeMessage (messageId timestamp sessionId : String) (advertised : List PayloadMode) :
    LdpEnvelope :=
  PythonSigning.signIfConfigured hmac client.signingSecret (LdpEnvelope.create messageId timestamp
    sessionId client.delegateId url (.sessionPropose (client.proposeConfig advertised)) .text)

/-- The card is read and passes the client's trust check. -/
def Discovered (card : Value) (identity : LdpIdentityCard) : Prop :=
  LdpIdentityCard.modelValidate card = some identity ∧
    (client.enforceTrustDomains = true →
      client.trustDomain.trusts identity.trustDomain.name = true)

/-- The end of a handshake, on the answer to the proposal. -/
inductive Concluded (card : Value) (faulty : Prop) (sessionId : String)
    (advertised : List PayloadMode) : Option LdpEnvelope → Except Raised LdpSession → Prop
  | failed (error : Raised) : Concluded card faulty sessionId advertised none (.error error)
  | rejected {back : LdpEnvelope} (error : Raised) : back.body.type = "SESSION_REJECT" →
      Concluded card faulty sessionId advertised (some back) (.error error)
  | notAdvertised {back : LdpEnvelope} (error : Raised) : back.body.type ≠ "SESSION_REJECT" →
      back.body.negotiatedMode.getD .text ≠ .text →
      back.body.negotiatedMode.getD .text ∉ advertised →
      Concluded card faulty sessionId advertised (some back) (.error error)
  | undiscovered {back : LdpEnvelope} (error : Raised) : back.body.type ≠ "SESSION_REJECT" →
      (faulty ∨ ∀ identity, ¬ Discovered client card identity) →
      Concluded card faulty sessionId advertised (some back) (.error error)
  | opened {back : LdpEnvelope} {identity : LdpIdentityCard} (createdAt lastUsed : ℤ) :
      back.body.type ≠ "SESSION_REJECT" →
      (back.body.negotiatedMode.getD .text = .text ∨
        back.body.negotiatedMode.getD .text ∈ advertised) →
      Discovered client card identity →
      Concluded card faulty sessionId advertised (some back)
        (.ok (client.newSession url (LdpClient.acceptedId back.body sessionId) identity
          (back.body.negotiatedMode.getD .text) createdAt lastUsed))

variable {σ : Type} (serves : Peer σ) (card : Value) (faulty : Prop)
  (tasks : Sessions → Sessions → Prop) (others : List String → σ → σ → Prop)
  (advertised : List PayloadMode)

inductive Handshake (w w' : Linked σ) : Except Raised LdpSession → Prop
  | unanswered {v : Linked σ} {p : σ} {messageId timestamp : String}
      {answer : Except String Value} (error : Raised) : Moved tasks others w v →
      Exchange serves faulty v.drawn
        (helloMessage client hmac url messageId timestamp advertised).modelDump v.peer answer p →
      Read answer none → Moved tasks others { v with peer := p } w' →
      Handshake w w' (.error error)
  | proposed {v₁ v₂ : Linked σ} {p₁ p₂ : σ}
      {messageId₁ timestamp₁ messageId₂ timestamp₂ sessionId : String}
      {answer₁ answer₂ : Except String Value} {greeting : LdpEnvelope}
      {outcome : Option LdpEnvelope} {r : Except Raised LdpSession} : Moved tasks others w v₁ →
      Exchange serves faulty v₁.drawn
        (helloMessage client hmac url messageId₁ timestamp₁ advertised).modelDump v₁.peer
        answer₁ p₁ →
      Read answer₁ (some greeting) → Moved tasks others { v₁ with peer := p₁ } v₂ →
      sessionId ∈ v₂.drawn →
      Exchange serves faulty v₂.drawn
        (proposeMessage client hmac url messageId₂ timestamp₂ sessionId advertised).modelDump
        v₂.peer answer₂ p₂ →
      Read answer₂ outcome → ReflTransGen (Respecting others v₂.drawn) p₂ w'.peer →
      Concluded client url card faulty sessionId advertised outcome r → Handshake w w' r

end

section
variable {client : LdpClient} {hmac : Hmac} {url : String} {σ : Type} {serves : Peer σ}
  {card : Value} {registered : List PayloadMode} {faulty : Prop}
  {tasks : Sessions → Sessions → Prop} {others : List String → σ → σ → Prop}
  {w w' : Linked σ} {tr : Trace}

abbrev LinkedRun (serves : Peer σ) (card : Value) (registered : List PayloadMode) (faulty : Prop)
    (tasks : Sessions → Sessions → Prop) (others : List String → σ → σ → Prop) {α : Type}
    (p : ClientProgram α) (w : Linked σ) (tr : Trace) (w' : Linked σ)
    (r : Except Raised α) : Prop :=
  Run (Meaning serves card registered faulty) (Interference tasks others) p w tr w' r

theorem helloMessage_body {messageId timestamp : String} {advertised : List PayloadMode} :
    (helloMessage client hmac url messageId timestamp advertised).body =
      .hello client.delegateId advertised := PythonSigning.signIfConfigured_body ..

theorem proposeMessage_body {messageId timestamp sessionId : String}
    {advertised : List PayloadMode} :
    (proposeMessage client hmac url messageId timestamp sessionId advertised).body =
      .sessionPropose (client.proposeConfig advertised) := PythonSigning.signIfConfigured_body ..

theorem ask_uuid4 {α : Type} {next : String → ClientProgram α} {r : Except Raised α}
    (h : LinkedRun serves card registered faulty tasks others (.ask .uuid4 next) w tr w' r) :
    ∃ id v tr₁, Moved tasks others w v ∧ id ∈ v.drawn ∧
      LinkedRun serves card registered faulty tasks others (next id) v tr₁ w' r := by
  obtain ⟨v, id, v', tr₁, hmoved, hm, hrun, _⟩ := moved_ask h
  have hv : v' = { v with drawn := id :: v.drawn } := hm
  refine ⟨id, v', tr₁, ?_, ?_, hrun⟩
  · rw [hv]
    exact hmoved.trans (moved_draw v id)
  · rw [hv]
    exact List.mem_cons_self

theorem create_run {α : Type} {sessionId fromId toId : String} {body : LdpMessageBody}
    {f : LdpEnvelope → ClientProgram α} {r : Except Raised α}
    (h : LinkedRun serves card registered faulty tasks others
      (create sessionId fromId toId body >>= f) w tr w' r) :
    ∃ messageId timestamp v tr₁, Moved tasks others w v ∧
      LinkedRun serves card registered faulty tasks others
        (f (LdpEnvelope.create messageId timestamp sessionId fromId toId body .text))
        v tr₁ w' r := by
  unfold create PythonClient.uuid4 PythonClient.isoNow at h
  simp only [call_bind, pure_eq, ask_bind, pure_bind_eq] at h
  obtain ⟨messageId, v, tr₁, hv, _, hrun⟩ := ask_uuid4 h
  obtain ⟨v₁, timestamp, v₂, tr₂, hv₁, hm, hrun₂, _⟩ := moved_ask hrun
  have hsame : v₂ = v₁ := hm
  rw [hsame] at hrun₂
  exact ⟨messageId, timestamp, v₁, tr₂, hv.trans hv₁, hrun₂⟩

theorem sendMessage_run {α : Type} {e : LdpEnvelope} {f : LdpEnvelope → ClientProgram α}
    {r : Except Raised α}
    (h : LinkedRun serves card registered faulty tasks others
      (client.sendMessage hmac url e >>= f) w tr w' r) :
    ∃ v p answer, Moved tasks others w v ∧
      Exchange serves faulty v.drawn
        (PythonSigning.signIfConfigured hmac client.signingSecret e).modelDump v.peer answer p ∧
      ((∃ error, Read answer none ∧ r = .error error ∧ Moved tasks others { v with peer := p } w') ∨
      ∃ back v' tr₁, Read answer (some back) ∧ Moved tasks others { v with peer := p } v' ∧
        LinkedRun serves card registered faulty tasks others (f back) v' tr₁ w' r) := by
  unfold LdpClient.sendMessage at h
  simp only [call_bind, ask_bind] at h
  obtain ⟨v, answer, v', tr₁, hv, hm, hrun, _⟩ := moved_ask h
  obtain ⟨p, hexchange, rfl⟩ := hm
  refine ⟨v, p, answer, hv, hexchange, ?_⟩
  cases answer with
  | error text =>
      obtain ⟨hmoved, _, rfl⟩ := moved_throw hrun
      exact .inl ⟨_, .unanswered text, rfl, hmoved⟩
  | ok document =>
      simp only [raiseForStatus, pure_bind_eq, ask_bind] at hrun
      obtain ⟨v₁, made, v₂, tr₂, hv₁, hm₁, hrun₁, _⟩ := moved_ask hrun
      have hsame : v₂ = v₁ := hm₁
      rw [hsame] at hrun₁
      cases hread : LdpEnvelope.modelValidate made document with
      | none =>
          rw [hread] at hrun₁
          obtain ⟨hmoved, _, rfl⟩ := moved_throw hrun₁
          exact .inl ⟨_, .invalid hread, rfl, hv₁.trans hmoved⟩
      | some back =>
          rw [hread] at hrun₁
          exact .inr ⟨back, v₁, tr₂, .read hread, hv₁, hrun₁⟩

/-- A fetched document is read as the card that is discovered in it; when none
is, reading it raises. -/
theorem validated_trusted (client : LdpClient) (document : Value) :
    (∃ identity, Discovered client document identity ∧
      validated (LdpIdentityCard.modelValidate document) >>= client.trusted = .pure identity) ∨
    ((∀ identity, ¬ Discovered client document identity) ∧ ∃ error,
      validated (LdpIdentityCard.modelValidate document) >>= client.trusted = .throw error) := by
  cases hread : LdpIdentityCard.modelValidate document with
  | none =>
      refine .inr ⟨?_, _, rfl⟩
      intro identity hdiscovered
      cases hread.symm.trans hdiscovered.1
  | some identity =>
      rw [validated, pure_bind_eq, LdpClient.trusted]
      split
      · next hdistrust =>
          refine .inr ⟨?_, _, rfl⟩
          intro identity' hdiscovered
          cases hread.symm.trans hdiscovered.1
          simp only [Bool.and_eq_true, Bool.not_eq_true'] at hdistrust
          have htrusts := hdiscovered.2 hdistrust.1
          rw [hdistrust.2] at htrusts
          cases htrusts
      · next htrust =>
          refine .inl ⟨identity, ⟨hread, ?_⟩, rfl⟩
          intro henforce
          by_contra hno
          exact htrust (by simp [henforce, hno])

theorem discover_run {α : Type} {f : LdpIdentityCard → ClientProgram α} {r : Except Raised α}
    (h : LinkedRun serves card registered faulty tasks others (client.discover url >>= f)
      w tr w' r) :
    (∃ error, r = .error error ∧ Moved tasks others w w' ∧
      (faulty ∨ ∀ identity, ¬ Discovered client card identity)) ∨
    ∃ identity v tr₁, Discovered client card identity ∧ Moved tasks others w v ∧
      LinkedRun serves card registered faulty tasks others (f identity) v tr₁ w' r := by
  unfold LdpClient.discover at h
  simp only [call_bind, ask_bind] at h
  obtain ⟨v, answer, v', tr₁, hv, hm, hrun, _⟩ := moved_ask h
  obtain ⟨hanswer, rfl⟩ := hm
  rcases hanswer with rfl | ⟨hfaulty, text, rfl⟩
  · simp only [raiseForStatus, pure_bind_eq] at hrun
    rcases validated_trusted client card with ⟨identity, hd, hcard⟩ | ⟨hno, error, hcard⟩
    · rw [hcard, pure_bind_eq] at hrun
      exact .inr ⟨identity, v', tr₁, hd, hv, hrun⟩
    · rw [hcard, Program.throw_bind] at hrun
      obtain ⟨hmoved, _, rfl⟩ := moved_throw hrun
      exact .inl ⟨_, rfl, hv.trans hmoved, .inr hno⟩
  · obtain ⟨hmoved, _, rfl⟩ := moved_throw hrun
    exact .inl ⟨_, rfl, hv.trans hmoved, .inl hfaulty⟩

theorem ask_utcNow {α : Type} {next : ℤ → ClientProgram α} {r : Except Raised α}
    (h : LinkedRun serves card registered faulty tasks others (.ask .utcNow next) w tr w' r) :
    ∃ now v tr₁, Moved tasks others w v ∧
      LinkedRun serves card registered faulty tasks others (next now) v tr₁ w' r := by
  obtain ⟨v, now, v', tr₁, hmoved, hm, hrun, _⟩ := moved_ask h
  have hsame : v' = v := hm
  rw [hsame] at hrun
  exact ⟨now, v, tr₁, hmoved, hrun⟩

theorem openSession_run {sessionId : String} {advertised : List PayloadMode} {back : LdpEnvelope}
    {r : Except Raised LdpSession} (htype : back.body.type ≠ "SESSION_REJECT")
    (h : LinkedRun serves card registered faulty tasks others
      (client.openSession url sessionId advertised back.body) w tr w' r) :
    ReflTransGen (Respecting others w.drawn) w.peer w'.peer ∧
      Concluded client url card faulty sessionId advertised (some back) r := by
  unfold LdpClient.openSession at h
  dsimp only at h
  split at h
  · next hno =>
      obtain ⟨hmoved, _, rfl⟩ := moved_throw h
      exact ⟨hmoved.peer, .notAdvertised _ htype hno.1 hno.2⟩
  · next hyes =>
      have hmode : back.body.negotiatedMode.getD .text = .text ∨
          back.body.negotiatedMode.getD .text ∈ advertised := by
        by_contra hcon
        exact hyes (not_or.mp hcon)
      rcases discover_run h with ⟨error, rfl, hmoved, hwhy⟩ | ⟨identity, v, tr₁, hd, hv, hrun⟩
      · exact ⟨hmoved.peer, .undiscovered error htype hwhy⟩
      · unfold PythonClient.utcNow setSession at hrun
        simp only [call_bind, pure_eq] at hrun
        obtain ⟨createdAt, v₁, tr₂, hv₁, hrun₁⟩ := ask_utcNow hrun
        obtain ⟨lastUsed, v₂, tr₃, hv₂, hrun₂⟩ := ask_utcNow hrun₁
        obtain ⟨v₃, _, v₄, tr₄, hv₃, hm, hrun₃, _⟩ := moved_ask hrun₂
        have hset : v₄ = _ := hm
        rw [hset] at hrun₃
        obtain ⟨hmoved, _, rfl⟩ := moved_pure hrun₃
        have hbefore := ((hv.trans hv₁).trans hv₂).trans hv₃
        exact ⟨hbefore.peer.trans (Respecting.mono hbefore.drawn hmoved.peer),
          .opened createdAt lastUsed htype hmode hd⟩

theorem proposeSession_run {advertised : List PayloadMode} {r : Except Raised LdpSession}
    (h : LinkedRun serves card registered faulty tasks others
      (client.proposeSession hmac url advertised) w tr w' r) :
    ∃ v sessionId messageId timestamp p answer outcome, Moved tasks others w v ∧
      sessionId ∈ v.drawn ∧
      Exchange serves faulty v.drawn
        (proposeMessage client hmac url messageId timestamp sessionId advertised).modelDump
        v.peer answer p ∧
      Read answer outcome ∧ ReflTransGen (Respecting others v.drawn) p w'.peer ∧
      Concluded client url card faulty sessionId advertised outcome r := by
  unfold LdpClient.proposeSession PythonClient.uuid4 at h
  simp only [call_bind] at h
  obtain ⟨sessionId, v, tr₁, hv, hid, hrun⟩ := ask_uuid4 h
  obtain ⟨messageId, timestamp, v₁, tr₂, hv₁, hrun₁⟩ := create_run hrun
  obtain ⟨v₂, p, answer, hv₂, hexchange, hrest⟩ := sendMessage_run hrun₁
  rcases hrest with ⟨error, hread, rfl, hmoved⟩ | ⟨back, v₃, tr₃, hread, hv₃, hrun₂⟩
  · exact ⟨v₂, sessionId, messageId, timestamp, p, answer, none, (hv.trans hv₁).trans hv₂,
      hv₂.drawn (hv₁.drawn hid), hexchange, hread, hmoved.peer, .failed error⟩
  · refine ⟨v₂, sessionId, messageId, timestamp, p, answer, some back, (hv.trans hv₁).trans hv₂,
      hv₂.drawn (hv₁.drawn hid), hexchange, hread, ?_⟩
    split at hrun₂
    · next hreject =>
        obtain ⟨hmoved, _, rfl⟩ := moved_throw hrun₂
        exact ⟨(hv₃.trans hmoved).peer, .rejected _ hreject⟩
    · next htype =>
        obtain ⟨hpeer, hconcluded⟩ := openSession_run htype hrun₂
        exact ⟨hv₃.peer.trans (Respecting.mono hv₃.drawn hpeer), hconcluded⟩

theorem establishSession_run {r : Except Raised LdpSession}
    (h : LinkedRun serves card registered faulty tasks others (client.establishSession hmac url)
      w tr w' r) :
    Handshake client hmac url serves card faulty tasks others
      (client.advertisedModes registered) w w' r := by
  unfold LdpClient.establishSession PythonClient.registeredModes at h
  simp only [call_bind] at h
  obtain ⟨u, modes, u', tr₀, hu, hm, hrun₀, _⟩ := moved_ask h
  obtain ⟨rfl, rfl⟩ := hm
  obtain ⟨messageId, timestamp, v, tr₁, hv, hrun⟩ := create_run hrun₀
  obtain ⟨v₁, p₁, answer₁, hv₁, hexchange, hrest⟩ := sendMessage_run hrun
  have hbefore := (hu.trans hv).trans hv₁
  rcases hrest with ⟨error, hread, rfl, hmoved⟩ | ⟨greeting, v₂, tr₂, hread, hv₂, hrun₁⟩
  · exact .unanswered error hbefore hexchange hread hmoved
  · obtain ⟨v₃, sessionId, messageId₂, timestamp₂, p₂, answer₂, outcome, hv₃, hid, hexchange₂,
      hread₂, hpeer, hconcluded⟩ := proposeSession_run hrun₁
    exact .proposed hbefore hexchange hread (hv₂.trans hv₃) hid hexchange₂ hread₂ hpeer hconcluded

end
end LdpProtocol.LinkedPythonClient
