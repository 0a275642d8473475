import LdpProtocol.LinkedPythonClient
import LdpProtocol.DelegateGate

/-!
# Which answers open a session

The Python client turns away a SESSION_REJECT and looks at the mode of every
other answer; it does not ask whether the answer is an acceptance. An answer of
another type then opens a session unless the mode it names, or the peer's card,
stops the handshake. The Rust session manager refuses every such answer.
-/
namespace LdpProtocol.SessionOpening
open InteractivePrograms InterferedRuns
open InteractivePrograms.Program (call_bind pure_eq ask_bind pure_bind_eq throw_bind)
open JsonValues PayloadModes EnvelopeSigning PythonMessages PythonSigning PythonIdentity
open PythonClient LinkedPythonClient

/-- Any answer may come; only a recorded session changes the dictionary. -/
def SessionsMeaning : InterferedRuns.Meaning ClientCall ClientCall.Answer Sessions
  | .setSession url session, s, _, t => t = s.insert url session
  | _, s, _, t => t = s

abbrev ClientRun {α : Type} (p : ClientProgram α) (s : Sessions) (tr : Trace) (t : Sessions)
    (r : Except Raised α) : Prop := Run SessionsMeaning Quiet p s tr t r

/-- The messages that were read, in order. -/
def replies : Trace → List LdpEnvelope
  | ⟨.postMessage _ _, .ok document⟩ :: ⟨.defaults, made⟩ :: rest =>
      (LdpEnvelope.modelValidate made document).toList ++ replies rest
  | _ :: rest => replies rest
  | [] => []

/-- The codec registry and the fetched card during a run. -/
def Surroundings (registered : List PayloadMode) (card : Except String Value) :
    Event ClientCall ClientCall.Answer → Prop
  | ⟨.registeredModes, a⟩ => a = registered
  | ⟨.getIdentity _, a⟩ => a = card
  | _ => True

/-- An active session is recorded and returned for an acceptance; otherwise the
call raises and records nothing. -/
def OpensOnlyAccepted (url : String) (back : LdpEnvelope) (s t : Sessions)
    (r : Except Raised LdpSession) : Prop :=
  (back.body.type = "SESSION_ACCEPT" ∧ ∃ session, r = .ok session ∧ session.state = .active ∧
    t = s.insert url session) ∨ ((∃ error, r = .error error) ∧ t = s)

/-- The handshake goes on to the end for an answer that is no rejection. -/
def Passes (client : LdpClient) (registered : List PayloadMode) (card : Except String Value)
    (body : LdpMessageBody) : Prop :=
  (body.negotiatedMode.getD .text = .text ∨
    body.negotiatedMode.getD .text ∈ client.advertisedModes registered) ∧
  ∃ document identity, card = .ok document ∧ Discovered client document identity

section Runs
variable {client : LdpClient} {hmac : Hmac} {url : String} {s t : Sessions} {tr : Trace}
  {registered : List PayloadMode} {card : Except String Value}

/-- A message that is answered is answered by what was read first. -/
theorem sendMessage_replies {e : LdpEnvelope} {f : LdpEnvelope → ClientProgram LdpSession}
    {r : Except Raised LdpSession} (h : ClientRun (client.sendMessage hmac url e >>= f) s tr t r) :
    ((∃ error, r = .error error) ∧ t = s ∧ replies tr = []) ∨
      ∃ back rest, replies tr = back :: replies rest ∧ (∀ ev ∈ rest, ev ∈ tr) ∧
        ClientRun (f back) s rest t r := by
  unfold LdpClient.sendMessage at h
  simp only [call_bind, ask_bind, quiet_ask] at h
  obtain ⟨answer, s₁, tr₁, hs₁, hrun, htr⟩ := h
  have hsame₁ : s₁ = s := hs₁
  subst hsame₁
  subst htr
  cases answer with
  | error text =>
      simp only [raiseForStatus, throw_bind, quiet_throw] at hrun
      obtain ⟨ht, htr, hr⟩ := hrun
      subst htr
      exact .inl ⟨⟨_, hr⟩, ht, rfl⟩
  | ok document =>
      simp only [raiseForStatus, pure_bind_eq, ask_bind, quiet_ask] at hrun
      obtain ⟨made, s₂, tr₂, hs₂, hrest, htr⟩ := hrun
      have hsame₂ : s₂ = s₁ := hs₂
      subst hsame₂
      subst htr
      cases hread : LdpEnvelope.modelValidate made document with
      | none =>
          rw [hread] at hrest
          simp only [validated, throw_bind, quiet_throw] at hrest
          obtain ⟨ht, htr, hr⟩ := hrest
          subst htr
          exact .inl ⟨⟨_, hr⟩, ht, by simp [replies, hread]⟩
      | some back =>
          rw [hread] at hrest
          simp only [validated, pure_bind_eq] at hrest
          refine .inr ⟨back, tr₂, by simp [replies, hread], ?_, hrest⟩
          intro ev hev
          exact List.mem_cons_of_mem _ (List.mem_cons_of_mem _ hev)

theorem create_replies {sessionId fromId toId : String} {body : LdpMessageBody}
    {f : LdpEnvelope → ClientProgram LdpSession} {r : Except Raised LdpSession}
    (h : ClientRun (create sessionId fromId toId body >>= f) s tr t r) :
    ∃ e rest, replies tr = replies rest ∧ (∀ ev ∈ rest, ev ∈ tr) ∧
      ClientRun (f e) s rest t r := by
  unfold create PythonClient.uuid4 PythonClient.isoNow at h
  simp only [call_bind, pure_eq, ask_bind, pure_bind_eq, quiet_ask] at h
  obtain ⟨messageId, s₁, _, hs₁, ⟨timestamp, s₂, rest, hs₂, hrun, htr₁⟩, htr⟩ := h
  have hsame₁ : s₁ = s := hs₁
  have hsame₂ : s₂ = s₁ := hs₂
  subst hsame₁ hsame₂ htr htr₁
  refine ⟨_, rest, rfl, ?_, hrun⟩
  intro ev hev
  exact List.mem_cons_of_mem _ (List.mem_cons_of_mem _ hev)

theorem discover_replies {f : LdpIdentityCard → ClientProgram LdpSession}
    {r : Except Raised LdpSession} (h : ClientRun (client.discover url >>= f) s tr t r)
    (hs : ∀ ev ∈ tr, Surroundings registered card ev) :
    (∃ document identity rest, card = .ok document ∧ Discovered client document identity ∧
      replies tr = replies rest ∧ ClientRun (f identity) s rest t r) ∨
    ((¬ ∃ document identity, card = .ok document ∧ Discovered client document identity) ∧
      (∃ error, r = .error error) ∧ t = s ∧ replies tr = []) := by
  unfold LdpClient.discover at h
  simp only [call_bind, ask_bind, quiet_ask] at h
  obtain ⟨answer, s₁, rest, hs₁, hrun, htr⟩ := h
  have hsame₁ : s₁ = s := hs₁
  subst hsame₁ htr
  have hcard : answer = card := hs ⟨.getIdentity url, answer⟩ List.mem_cons_self
  subst hcard
  cases answer with
  | error text =>
      simp only [raiseForStatus, throw_bind, quiet_throw] at hrun
      obtain ⟨ht, htr, hr⟩ := hrun
      subst htr
      refine .inr ⟨?_, ⟨_, hr⟩, ht, rfl⟩
      intro hfound
      obtain ⟨_, _, hok, _⟩ := hfound
      cases hok
  | ok document =>
      simp only [raiseForStatus, pure_bind_eq] at hrun
      rcases validated_trusted client document with ⟨identity, hd, hread⟩ | ⟨hno, error, hread⟩
      · rw [hread, pure_bind_eq] at hrun
        exact .inl ⟨document, identity, rest, rfl, hd, rfl, hrun⟩
      · rw [hread, throw_bind, quiet_throw] at hrun
        obtain ⟨ht, htr, hr⟩ := hrun
        subst htr
        refine .inr ⟨?_, ⟨_, hr⟩, ht, rfl⟩
        intro hfound
        obtain ⟨_, identity, hok, hdiscovered⟩ := hfound
        cases hok
        exact hno identity hdiscovered

/-- What becomes of an answer that is no rejection. -/
theorem openSession_outcome {sessionId : String} {body : LdpMessageBody}
    {r : Except Raised LdpSession}
    (h : ClientRun (client.openSession url sessionId (client.advertisedModes registered) body)
      s tr t r) (hs : ∀ ev ∈ tr, Surroundings registered card ev) : replies tr = [] ∧
    ((Passes client registered card body ∧ ∃ session, r = .ok session ∧
        session.state = .active ∧ t = s.insert url session) ∨
      (¬ Passes client registered card body ∧ (∃ error, r = .error error) ∧ t = s)) := by
  unfold LdpClient.openSession at h
  dsimp only at h
  split at h
  · next hmode =>
      obtain ⟨ht, htr, hr⟩ := quiet_throw.mp h
      subst htr
      refine ⟨rfl, .inr ⟨?_, ⟨_, hr⟩, ht⟩⟩
      intro hpasses
      rcases hpasses.1 with htext | hadvertised
      · exact hmode.1 htext
      · exact hmode.2 hadvertised
  · next hmode =>
      have hspoken : body.negotiatedMode.getD .text = .text ∨
          body.negotiatedMode.getD .text ∈ client.advertisedModes registered := by
        by_contra hcon
        exact hmode (not_or.mp hcon)
      rcases discover_replies h hs with ⟨document, identity, rest, hcard, hd, hreplies, hrun⟩ |
        ⟨hnone, herror, ht, hreplies⟩
      · unfold PythonClient.utcNow setSession at hrun
        simp only [call_bind, pure_eq, quiet_ask, quiet_pure] at hrun
        obtain ⟨createdAt, s₁, _, hs₁, ⟨lastUsed, s₂, _, hs₂, ⟨_, s₃, _, hs₃, ⟨ht, htr₃, hr⟩,
          htr₂⟩, htr₁⟩, htr⟩ := hrun
        have hsame₁ : s₁ = s := hs₁
        have hsame₂ : s₂ = s₁ := hs₂
        subst hsame₁ hsame₂ htr htr₁ htr₂ htr₃
        exact ⟨hreplies, .inl ⟨⟨hspoken, document, identity, hcard, hd⟩, _, hr, rfl, ht.trans hs₃⟩⟩
      · exact ⟨hreplies, .inr ⟨fun hpasses => hnone hpasses.2, herror, ht⟩⟩

/-- What becomes of a handshake whose two messages were answered. -/
theorem establishSession_outcome {greeting back : LdpEnvelope} {r : Except Raised LdpSession}
    (h : ClientRun (client.establishSession hmac url) s tr t r)
    (hs : ∀ ev ∈ tr, Surroundings registered card ev) (hreplies : replies tr = [greeting, back]) :
    (back.body.type ≠ "SESSION_REJECT" ∧ Passes client registered card back.body ∧
      ∃ session, r = .ok session ∧ session.state = .active ∧ t = s.insert url session) ∨
    ((back.body.type = "SESSION_REJECT" ∨ ¬ Passes client registered card back.body) ∧
      (∃ error, r = .error error) ∧ t = s) := by
  unfold LdpClient.establishSession PythonClient.registeredModes at h
  simp only [call_bind, quiet_ask] at h
  obtain ⟨modes, s₁, tr₁, hs₁, hrun₁, htr⟩ := h
  have hsame₁ : s₁ = s := hs₁
  subst hsame₁ htr
  have hmodes : modes = registered := hs ⟨.registeredModes, modes⟩ List.mem_cons_self
  subst hmodes
  have hreplies₁ : replies tr₁ = [greeting, back] := hreplies
  obtain ⟨hello, tr₂, hreplies₂, hsub₂, hrun₂⟩ := create_replies hrun₁
  rw [hreplies₁] at hreplies₂
  rcases sendMessage_replies hrun₂ with ⟨_, _, hnone⟩ | ⟨first, tr₃, hfirst, hsub₃, hrun₃⟩
  · rw [hnone] at hreplies₂
    cases hreplies₂
  · rw [hfirst] at hreplies₂
    have hreplies₃ : replies tr₃ = [back] := (List.cons.inj hreplies₂).2.symm
    unfold LdpClient.proposeSession PythonClient.uuid4 at hrun₃
    simp only [call_bind, quiet_ask] at hrun₃
    obtain ⟨sessionId, s₄, tr₄, hs₄, hrun₄, htr₄⟩ := hrun₃
    have hsame₄ : s₄ = s₁ := hs₄
    subst hsame₄ htr₄
    have hreplies₄ : replies tr₄ = [back] := hreplies₃
    obtain ⟨propose, tr₅, hreplies₅, hsub₅, hrun₅⟩ := create_replies hrun₄
    rw [hreplies₄] at hreplies₅
    rcases sendMessage_replies hrun₅ with ⟨_, _, hnone⟩ | ⟨second, tr₆, hsecond, hsub₆, hrun₆⟩
    · rw [hnone] at hreplies₅
      cases hreplies₅
    · rw [hsecond] at hreplies₅
      have hback : second = back := (List.cons.inj hreplies₅).1.symm
      subst hback
      have hs₆ : ∀ ev ∈ tr₆, Surroundings modes card ev := by
        intro ev hev
        apply hs
        apply List.mem_cons_of_mem
        apply hsub₂
        apply hsub₃
        apply List.mem_cons_of_mem
        apply hsub₅
        exact hsub₆ ev hev
      split at hrun₆
      · next hreject =>
          obtain ⟨ht, _, hr⟩ := quiet_throw.mp hrun₆
          exact .inr ⟨.inl hreject, ⟨_, hr⟩, ht⟩
      · next hother =>
          rcases (openSession_outcome hrun₆ hs₆).2 with ⟨hpasses, hopened⟩ | ⟨hstops, hfailed⟩
          · exact .inl ⟨hother, hpasses, hopened⟩
          · exact .inr ⟨.inr hstops, hfailed⟩

theorem passes_iff {body : LdpMessageBody} : ¬ Passes client registered card body ↔
    (body.negotiatedMode.getD .text ≠ .text ∧
      body.negotiatedMode.getD .text ∉ client.advertisedModes registered) ∨
    ∀ document identity, card = .ok document → ¬ Discovered client document identity := by
  rw [Passes, not_and_or, not_or]
  simp only [not_exists, not_and]

/-- A session is opened for acceptances only, exactly when the answer is an
acceptance or a rejection, or something else stops the handshake: the mode it
names is neither TEXT nor advertised, or the peer cannot be discovered. -/
theorem opensOnlyAccepted_iff (client : LdpClient) (hmac : Hmac) (url : String)
    (registered : List PayloadMode) (card : Except String Value) (s t : Sessions) (tr : Trace)
    (r : Except Raised LdpSession) (greeting back : LdpEnvelope)
    (h : ClientRun (client.establishSession hmac url) s tr t r)
    (hs : ∀ ev ∈ tr, Surroundings registered card ev) (hreplies : replies tr = [greeting, back]) :
    OpensOnlyAccepted url back s t r ↔
      back.body.type = "SESSION_ACCEPT" ∨ back.body.type = "SESSION_REJECT" ∨
      (back.body.negotiatedMode.getD .text ≠ .text ∧
        back.body.negotiatedMode.getD .text ∉ client.advertisedModes registered) ∨
      ∀ document identity, card = .ok document → ¬ Discovered client document identity := by
  rw [← passes_iff]
  rcases establishSession_outcome h hs hreplies with ⟨hother, hpasses, session, hr, hactive, ht⟩ |
    ⟨hstops, herror, ht⟩
  · constructor
    · intro hopens
      rcases hopens with ⟨haccept, _⟩ | ⟨⟨error, hfailed⟩, _⟩
      · exact .inl haccept
      · rw [hr] at hfailed
        cases hfailed
    · intro hcondition
      rcases hcondition with haccept | hreject | hstop
      · exact .inl ⟨haccept, session, hr, hactive, ht⟩
      · exact (hother hreject).elim
      · exact (hstop hpasses).elim
  · constructor
    · intro _
      exact .inr hstops
    · intro _
      exact .inr ⟨herror, ht⟩

end Runs

/-- Surroundings in which every message gets one reply. -/
def replying (reply card : Value) : (q : ClientCall) → Sessions → q.Answer × Sessions
  | .uuid4, s => ("9f1c1f0e-6f7e-4a0b-9a55-0d6a3b1c2d4e", s)
  | .isoNow, s => ("1970-01-01T00:00:00+00:00", s)
  | .utcNow, s => (0, s)
  | .registeredModes, s => ([], s)
  | .defaults, s => (⟨"m2", "t2", "c1", "t3", "t4"⟩, s)
  | .postMessage _ _, s => (.ok reply, s)
  | .getIdentity _, s => (.ok card, s)
  | .setSession url session, s => ((), s.insert url session)

theorem replying_meaning (reply card : Value) (q : ClientCall) (s : Sessions) :
    SessionsMeaning q s (replying reply card q s).1 (replying reply card q s).2 := by
  cases q <;> rfl

theorem replying_surroundings {α : Type} (reply card : Value) (p : ClientProgram α)
    (s : Sessions) :
    ∀ ev ∈ (Program.exec (replying reply card) p s).1, Surroundings [] (.ok card) ev := by
  apply exec_events
  intro q _
  cases q with
  | registeredModes | getIdentity => rfl
  | _ => trivial

/-- A handshake of the default client in which both messages get one reply. -/
def handshake (reply : LdpEnvelope) : Trace × Sessions × Except Raised LdpSession :=
  Program.exec (replying reply.modelDump DelegateGate.signingDelegate.identity.modelDump)
    (LdpClient.establishSession {} submissionMac "http://b") ∅

theorem handshake_run (reply : LdpEnvelope) :
    ClientRun (LdpClient.establishSession {} submissionMac "http://b") ∅ (handshake reply).1
      (handshake reply).2.1 (handshake reply).2.2 :=
  exec_run _ (replying_meaning _ _) _ _

def answeredWith (body : LdpMessageBody) : LdpEnvelope :=
  LdpEnvelope.create "m1" "t1" "s1" "ldp:b" "ldp:client:default" body .text

theorem opensOnlyAccepted_iff_rejection :
    OpensOnlyAccepted "http://b" (answeredWith (.sessionReject "full")) ∅
      (handshake (answeredWith (.sessionReject "full"))).2.1
      (handshake (answeredWith (.sessionReject "full"))).2.2 :=
  (opensOnlyAccepted_iff _ _ _ _ _ _ _ _ _ _ _ (handshake_run _) (replying_surroundings _ _ _ _)
    rfl).mpr (.inr (.inl rfl))

/-- How a delegate answers a message with a wrong signature. -/
def refusal : LdpEnvelope := answeredWith (.taskFailedText "" "Invalid message signature")

/-- A refused proposal opens a session. -/
theorem opens_refused : ¬ ∀ (client : LdpClient) (hmac : Hmac) (url : String) (s t : Sessions)
    (tr : Trace) (r : Except Raised LdpSession) (greeting back : LdpEnvelope),
    ClientRun (client.establishSession hmac url) s tr t r → replies tr = [greeting, back] →
    OpensOnlyAccepted url back s t r := by
  intro hall
  have hreplies : replies (handshake refusal).1 = [refusal, refusal] := rfl
  have hopened : ∃ session, (handshake refusal).2.2 = .ok session := ⟨_, rfl⟩
  rcases hall _ _ _ _ _ _ _ _ _ (handshake_run refusal) hreplies with ⟨haccept, _⟩ |
    ⟨⟨error, hfailed⟩, _⟩
  · exact absurd haccept (by decide)
  · obtain ⟨session, hsession⟩ := hopened
    rw [hsession] at hfailed
    cases hfailed

end LdpProtocol.SessionOpening
