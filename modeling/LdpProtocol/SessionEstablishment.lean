import LdpProtocol.ClientQuestions
import LdpProtocol.ConcurrentCalls

/-!
# What establishes a session

The handshake draws ids, reads the clock and talks to its URL; nothing else. It
gives a session only if HELLO was answered with a manifest and the proposal with
an acceptance, and the session is the one these two answers describe. Nothing is
said here of who else moves the cache.
-/
namespace LdpProtocol.SessionEstablishment
open InteractivePrograms InterferedRuns ConcurrentCalls
open InteractivePrograms.Program (call_bind pure_eq)
open JsonValues PayloadModes MessageTypes EnvelopeSigning SessionManager ClientQuestions

abbrev Trace := List (Event ClientCall ClientCall.Answer)

/-- The questions of a handshake. -/
def Talks (url : String) : ClientCall → Prop
  | .newV4 | .utcNow | .utcNowRfc3339 => True
  | .sendMessage to_ _ => to_ = url
  | _ => False

/-- The answers that a session rests on. -/
def Shaken (hmac : Hmac) (config : LdpAdapterConfig) (url : String) (tr : Trace)
    (session : LdpSession) : Prop :=
  ∃ hello manifest capabilities propose acceptance acceptedId mode now,
    ⟨.sendMessage url (signIfConfigured hmac config.signingSecret hello), .ok manifest⟩ ∈ tr ∧
    hello.body = .hello config.delegateId config.session.preferredPayloadModes ∧
    manifest.body = .capabilityManifest capabilities ∧
    ⟨.sendMessage url (signIfConfigured hmac config.signingSecret propose), .ok acceptance⟩ ∈ tr ∧
    propose.body = .sessionPropose (proposeConfig config (negotiatePayloadMode
      config.session.preferredPayloadModes (remoteModes capabilities)).mode) ∧
    acceptance.body = .sessionAccept acceptedId mode ∧
    session = establishedSession config url acceptedId manifest.from_ (negotiatePayloadMode
      config.session.preferredPayloadModes (remoteModes capabilities)) now

theorem Shaken.mono {hmac : Hmac} {config : LdpAdapterConfig} {url : String} {tr tr' : Trace}
    {session : LdpSession} (h : Shaken hmac config url tr session) (hsub : tr ⊆ tr') :
    Shaken hmac config url tr' session := by
  obtain ⟨hello, manifest, capabilities, propose, acceptance, acceptedId, mode, now, hsent, hhello,
    hmanifest, hproposed, hpropose, hacceptance, hsession⟩ := h
  exact ⟨hello, manifest, capabilities, propose, acceptance, acceptedId, mode, now, hsub hsent,
    hhello, hmanifest, hsub hproposed, hpropose, hacceptance, hsession⟩

section
variable {hmac : Hmac} {config : LdpAdapterConfig} {url : String} {tr : Trace}

theorem ordinary_talks : Ordinary (Talks url) := ⟨trivial, trivial, trivial⟩

theorem establishSession_talks (hmac : Hmac) (config : LdpAdapterConfig) (url : String) :
    (establishSession hmac config url).Uses (fun _ _ => True) (Talks url) :=
  establishSession_uses ordinary_talks (fun _ _ => rfl) fun _ _ _ => rfl

theorem isActive_talks (url : String) (session : LdpSession) :
    (isActive session).Uses (fun _ _ => True) (Talks url) :=
  isActive_uses trivial session

theorem newEnvelope_done {sessionId from_ to_ : String} {body : LdpMessageBody}
    {payloadMode : PayloadMode} {r : Except String LdpEnvelope}
    (h : Along (newEnvelope sessionId from_ to_ body payloadMode) tr (done r)) :
    ∃ e, r = .ok e ∧ e.body = body := by
  unfold newEnvelope newV4 utcNowRfc3339 at h
  simp only [call_bind, pure_eq, along_ask_done, along_pure_done] at h
  obtain ⟨messageId, _, _, now, _, _, _, hr⟩ := h
  exact ⟨_, hr, rfl⟩

theorem sendSigned_done {e : LdpEnvelope} {r : Except String LdpEnvelope}
    (h : Along (sendSigned hmac config url e) tr (done r)) :
    tr = [⟨.sendMessage url (signIfConfigured hmac config.signingSecret e), r⟩] := by
  unfold sendSigned sendMessage at h
  simp only [call_bind, along_ask_done] at h
  obtain ⟨a, rest, htr, hrest⟩ := h
  cases a with
  | ok response =>
      obtain ⟨hnil, hr⟩ := along_pure_done.mp hrest
      rw [htr, hnil, hr]
  | error err =>
      obtain ⟨hnil, hr⟩ := along_throw_done.mp hrest
      rw [htr, hnil, hr]

/-- A handshake that gives a session has got both answers. -/
theorem establishSession_done {session : LdpSession}
    (h : Along (establishSession hmac config url) tr (done (.ok session))) :
    Shaken hmac config url tr session := by
  unfold establishSession at h
  rcases h.of_bind_done with ⟨_, _, hr⟩ | ⟨hello, tr₁, tr₂, h₁, h₂, htr⟩
  · cases hr
  obtain ⟨_, hhello, hbody⟩ := newEnvelope_done (r := .ok hello) h₁
  cases hhello
  rcases h₂.of_bind_done with ⟨_, _, hr⟩ | ⟨manifest, tr₃, tr₄, h₃, h₄, htr₂⟩
  · cases hr
  have hsent := sendSigned_done (r := .ok manifest) h₃
  cases hmanifest : manifest.body with
  | capabilityManifest capabilities =>
      simp only [hmanifest, proposeSession, newV4, call_bind, along_ask_done] at h₄
      obtain ⟨sessionId, tr₅, htr₄, h₅⟩ := h₄
      rcases h₅.of_bind_done with ⟨_, _, hr⟩ | ⟨propose, tr₆, tr₇, h₆, h₇, htr₅⟩
      · cases hr
      obtain ⟨_, hpropose, hproposal⟩ := newEnvelope_done (r := .ok propose) h₆
      cases hpropose
      rcases h₇.of_bind_done with ⟨_, _, hr⟩ | ⟨acceptance, tr₈, tr₉, h₈, h₉, htr₇⟩
      · cases hr
      have hproposed := sendSigned_done (r := .ok acceptance) h₈
      unfold finishHandshake at h₉
      cases hacceptance : acceptance.body with
      | sessionAccept acceptedId mode =>
          simp only [hacceptance, utcNow, call_bind, pure_eq, along_ask_done, along_pure_done]
            at h₉
          obtain ⟨now, _, _, _, hr⟩ := h₉
          refine ⟨hello, manifest, capabilities, propose, acceptance, acceptedId, mode, now, ?_,
            hbody, hmanifest, ?_, hproposal, hacceptance, Except.ok.inj hr⟩
          · rw [htr, htr₂, hsent]
            simp
          · rw [htr, htr₂, htr₄, htr₅, htr₇, hproposed]
            simp
      | sessionReject reason error =>
          rw [hacceptance] at h₉
          cases error <;> simp [along_throw_done] at h₉
      | _ => simp [hacceptance, along_throw_done] at h₉
  | _ => simp [hmanifest, along_throw_done] at h₄

end
end LdpProtocol.SessionEstablishment
