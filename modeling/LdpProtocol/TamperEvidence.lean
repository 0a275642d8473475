import LdpProtocol.ServerGate
import LdpProtocol.ServerRuns

/-!
# What one signature binds

Two messages accepted under one signature agree in everything that is signed,
and the server treats them alike except for the two contents that are acted on
but not signed: the input of a submission and the configuration of a proposal.
-/
namespace LdpProtocol.TamperEvidence
open InteractivePrograms InterferedRuns
open JsonValues PayloadModes MessageTypes EnvelopeSigning SigningInput
open ServerHandlers ServerGate ServerRuns

/-- The content a handler acts on that no signature covers. -/
def unsignedContent : LdpMessageBody → Option Value
  | .sessionPropose config => some config
  | .taskSubmit _ _ input _ => some input
  | _ => none

/-- Messages of one type under one accepted signature are processed alike: each
outcome of the first is an outcome of the second. -/
def TamperEvident (hmac : Hmac) : Prop :=
  ∀ (srv : LdpServer) (secret sig : String) (s : ServerState) (e₁ e₂ : LdpEnvelope),
    srv.signingSecret = some secret → e₁.body.tag = e₂.body.tag →
    e₁.signature = some sig → e₂.signature = some sig →
    srv.signatureError hmac e₁ = none → srv.signatureError hmac e₂ = none →
    ∀ tr₁ u₁ r₁, Run ServerCall.Meaning Quiet (srv.handleMessage hmac e₁) s tr₁ u₁ r₁ →
      ∃ tr₂ u₂ r₂, Run ServerCall.Meaning Quiet (srv.handleMessage hmac e₂) s tr₂ u₂ r₂ ∧
        invocations tr₁ = invocations tr₂ ∧ u₁ = u₂ ∧
        r₁.map LdpEnvelope.body = r₂.map LdpEnvelope.body

theorem submission_invocations {hmac : Hmac} {input : Value} {payloadMode : PayloadMode}
    {s u : ServerState} {tr : Trace} {r : Except String LdpEnvelope}
    (h : Run ServerCall.Meaning Quiet
      (signingServer.handleMessage hmac (submission hmac input payloadMode)) s tr u r) :
    invocations tr = [("echo", input)] := by
  rw [handleMessage_invocations h, dueInvocations, submission_accepted]
  rfl

/-- The input of a submission is not signed, whatever the MAC. -/
theorem input_not_tamperEvident : ¬ ∃ hmac : Hmac, TamperEvident hmac := by
  intro h
  obtain ⟨hmac, hevident⟩ := h
  have hrun : Run ServerCall.Meaning Quiet
      (signingServer.handleMessage hmac (submission hmac .null .text)) ServerState.empty _ _ _ :=
    exec_run ServerCall.echo ServerCall.echo_meaning _ _
  have hsame := hevident signingServer "secret" _ ServerState.empty
    (submission hmac .null .text) (submission hmac (.bool true) .text) rfl rfl rfl rfl
    (submission_accepted ..) (submission_accepted ..) _ _ _ hrun
  obtain ⟨tr₂, u₂, r₂, hrun₂, hinv, _⟩ := hsame
  rw [submission_invocations hrun, submission_invocations hrun₂] at hinv
  cases hinv

section Congr
variable (srv : LdpServer) {e₁ e₂ : LdpEnvelope} (hfrom : e₁.from_ = e₂.from_)
  (hsession : e₁.sessionId = e₂.sessionId)
include hfrom hsession

theorem respond_congr : srv.respond e₁ = srv.respond e₂ := by
  funext body mode
  unfold LdpServer.respond LdpServer.response
  rw [hfrom, hsession]

theorem handleSessionPropose_congr : srv.handleSessionPropose e₁ = srv.handleSessionPropose e₂ := by
  funext config
  unfold LdpServer.handleSessionPropose LdpServer.proposedSession
  rw [hfrom, hsession, respond_congr srv hfrom hsession]

theorem handleTaskSubmit_congr : srv.handleTaskSubmit e₁ = srv.handleTaskSubmit e₂ := by
  funext taskId skill input
  unfold LdpServer.handleTaskSubmit
  rw [hsession, respond_congr srv hfrom hsession]

theorem handleTaskStatusQuery_congr :
    srv.handleTaskStatusQuery e₁ = srv.handleTaskStatusQuery e₂ := by
  funext taskId
  unfold LdpServer.handleTaskStatusQuery
  rw [respond_congr srv hfrom hsession]

/-- A dispatch depends on the sender, the session, the signed body fields and
the unsigned content only. -/
theorem dispatch_congr (hbody : signedBody e₁.body = signedBody e₂.body)
    (hcontent : unsignedContent e₁.body = unsignedContent e₂.body) :
    srv.dispatch e₁ = srv.dispatch e₂ := by
  have hr := respond_congr srv hfrom hsession
  have hp := handleSessionPropose_congr srv hfrom hsession
  have hsub := handleTaskSubmit_congr srv hfrom hsession
  have hq := handleTaskStatusQuery_congr srv hfrom hsession
  unfold LdpServer.dispatch
  cases h₁ : e₁.body <;> cases h₂ : e₂.body <;>
    simp_all [signedBody, unsignedContent, LdpServer.handleHello, LdpServer.handleTaskCancel,
      LdpServer.handleSessionClose]

end Congr

theorem signature_eq_of_accepted {hmac : Hmac} {srv : LdpServer} {secret sig : String}
    {e : LdpEnvelope} (hs : srv.signingSecret = some secret) (hsig : e.signature = some sig)
    (h : srv.signatureError hmac e = none) : sig = signEnvelope hmac e secret := by
  unfold LdpServer.signatureError at h
  simp only [hs, hsig] at h
  split at h
  · next hv => exact (verifyEnvelope_iff hmac e secret sig).mp hv
  · cases h

/-- Under a MAC without a collision on the two inputs, and with no bar in the
signed strings, one accepted signature binds every signed field, and the server
program for the two messages is the same unless the unsigned content differs. -/
theorem handleMessage_eq_of_signature (hmac : Hmac) (srv : LdpServer) (secret sig : String)
    (e₁ e₂ : LdpEnvelope) (hs : srv.signingSecret = some secret)
    (hsig₁ : e₁.signature = some sig) (hsig₂ : e₂.signature = some sig)
    (hacc₁ : srv.signatureError hmac e₁ = none) (hacc₂ : srv.signatureError hmac e₂ = none)
    (hfree : hmac secret.toUTF8 (canon e₁) = hmac secret.toUTF8 (canon e₂) →
      canon e₁ = canon e₂)
    (hbar₁ : BarFree (signedStrings e₁ ++ e₁.nonce.toList))
    (hbar₂ : BarFree (signedStrings e₂ ++ e₂.nonce.toList)) :
    SameSigned e₁ e₂ ∧ (unsignedContent e₁.body = unsignedContent e₂.body →
      srv.handleMessage hmac e₁ = srv.handleMessage hmac e₂) := by
  have h₁ := signature_eq_of_accepted hs hsig₁ hacc₁
  have h₂ := signature_eq_of_accepted hs hsig₂ hacc₂
  have hmacs : hmac secret.toUTF8 (canon e₁) = hmac secret.toUTF8 (canon e₂) :=
    hexEncode_inj (h₁.symm.trans h₂)
  have hsame := sameSigned_of_barFree hbar₁ hbar₂ (hfree hmacs)
  refine ⟨hsame, ?_⟩
  intro hcontent
  unfold LdpServer.handleMessage
  rw [hacc₁, hacc₂, dispatch_congr srv hsame.from_ hsame.sessionId hsame.body hcontent]

theorem handleMessage_eq_of_signature_submission :
    SameSigned (submission submissionMac .null .text)
        (submission submissionMac .null .semanticFrame) ∧
      signingServer.handleMessage submissionMac (submission submissionMac .null .text) =
        signingServer.handleMessage submissionMac
          (submission submissionMac .null .semanticFrame) := by
  have h := handleMessage_eq_of_signature submissionMac signingServer "secret"
    (signEnvelope submissionMac (submission submissionMac .null .text) "secret")
    (submission submissionMac .null .text) (submission submissionMac .null .semanticFrame)
    rfl rfl rfl (submission_accepted ..) (submission_accepted ..) (fun _ => rfl)
    (by decide) (by decide)
  exact ⟨h.1, h.2 rfl⟩

end LdpProtocol.TamperEvidence
