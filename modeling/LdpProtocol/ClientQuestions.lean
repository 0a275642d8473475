import LdpProtocol.LdpAdapter

/-!
# What the client asks

For each of the client's programs, the questions it can come to: if a predicate
holds of these, it holds of whatever the program asks. Messages are known by the
body they were built with.
-/
namespace LdpProtocol.ClientQuestions
open InteractivePrograms InterferedRuns
open InteractivePrograms.Program (call_bind uses_pure uses_throw uses_ofExcept)
open JsonValues PayloadModes MessageTypes EnvelopeSigning SessionManager LdpAdapter

/-- Ids and clock readings are in `P`. -/
structure Ordinary (P : ClientCall → Prop) : Prop where
  newV4 : P .newV4
  utcNow : P .utcNow
  utcNowRfc3339 : P .utcNowRfc3339

section
variable {parseRfc3339 : String → Option ℤ} {hmac : Hmac} {config : LdpAdapterConfig}
  {R : (q : ClientCall) → q.Answer → Prop} {P : ClientCall → Prop} {url taskId : String}

/-- The message, signed if configured, is in `P` whenever its body is the given one. -/
abbrev Sends (hmac : Hmac) (config : LdpAdapterConfig) (P : ClientCall → Prop) (url : String)
    (body : LdpMessageBody) : Prop :=
  ∀ e : LdpEnvelope, e.body = body →
    P (.sendMessage url (signIfConfigured hmac config.signingSecret e))

theorem sendSigned_uses {e : LdpEnvelope}
    (h : P (.sendMessage url (signIfConfigured hmac config.signingSecret e))) :
    (sendSigned hmac config url e).Uses R P :=
  ⟨h, fun _ _ => uses_ofExcept _⟩

theorem isActive_uses (h : P .utcNow) (session : LdpSession) : (isActive session).Uses R P := by
  unfold isActive
  split
  · exact ⟨h, fun _ _ => uses_pure _⟩
  · exact uses_pure _

theorem finishHandshake_uses (h : P .utcNow) (remoteDelegateId : String)
    (negotiated : NegotiatedPayload) (response : LdpEnvelope) :
    (finishHandshake config url remoteDelegateId negotiated response).Uses R P := by
  unfold finishHandshake
  split
  · exact ⟨h, fun _ _ => uses_pure _⟩
  · exact uses_throw _
  · exact uses_throw _
  · exact uses_throw _

theorem establishSession_uses (h : Ordinary P)
    (hhello : Sends hmac config P url
      (.hello config.delegateId config.session.preferredPayloadModes))
    (hpropose : ∀ proposed, Sends hmac config P url (.sessionPropose proposed)) :
    (establishSession hmac config url).Uses R P := by
  unfold establishSession
  apply newEnvelope_uses h.newV4 h.utcNowRfc3339
  intro hello hbody
  apply (sendSigned_uses (hhello hello hbody)).bind
  intro manifest
  split
  · unfold proposeSession
    refine ⟨h.newV4, ?_⟩
    intro sessionId _
    apply newEnvelope_uses h.newV4 h.utcNowRfc3339
    intro propose hproposed
    apply (sendSigned_uses (hpropose _ propose hproposed)).bind
    intro answer
    exact finishHandshake_uses h.utcNow _ _ answer
  · exact uses_throw _

theorem getOrEstablish_uses (h : Ordinary P) (hget : P (.getSession url))
    (hopen : (establishSession hmac config url).Uses R P)
    (hinsert : ∀ session, P (.insertSession url session)) :
    (getOrEstablish hmac config url).Uses R P := by
  have hnew : (establishAndCache hmac config url).Uses R P :=
    hopen.bind fun session => ⟨hinsert session, fun _ _ => uses_pure _⟩
  refine ⟨hget, ?_⟩
  intro cached _
  cases cached with
  | none => exact hnew
  | some session =>
      apply (isActive_uses h.utcNow session).bind
      intro active
      split
      · exact uses_pure _
      · exact hnew

theorem close_uses (h : Ordinary P) (hremove : P (.removeSession url))
    (hclose : ∀ e : LdpEnvelope, e.body = .sessionClose none → P (.sendMessage url e)) :
    (close config url).Uses R P := by
  refine ⟨hremove, ?_⟩
  intro removed _
  cases removed with
  | none => exact uses_pure _
  | some session =>
      apply newEnvelope_uses h.newV4 h.utcNowRfc3339
      intro closeMsg hbody
      exact ⟨hclose closeMsg hbody, fun _ _ => uses_pure _⟩

theorem closeEach_uses (hclose : ∀ url, (close config url).Uses R P) (urls : List String) :
    (closeEach config urls).Uses R P := by
  induction urls with
  | nil => exact uses_pure _
  | cons url urls ih => exact (hclose url).bind fun _ => ih

theorem closeAll_uses (hurls : P .sessionUrls) (hclose : ∀ url, (close config url).Uses R P) :
    (closeAll config).Uses R P :=
  ⟨hurls, fun urls _ => closeEach_uses hclose urls⟩

theorem storeContract_uses {stored : Option DelegationContract}
    (h : ∀ contract, stored = some contract → P (.insertContract taskId contract)) :
    (storeContract taskId stored).Uses R P := by
  cases stored with
  | none => exact uses_pure _
  | some contract => exact ⟨h contract rfl, fun _ _ => uses_pure _⟩

/-- A submission, once it has its session and its id. -/
theorem submit_uses (h : Ordinary P) {session : LdpSession} {task : TaskRequest}
    (hsubmit : Sends hmac config P url
      (.taskSubmit taskId task.skill task.input task.contract))
    (hstore : ∀ contract, task.contract = some contract → P (.insertContract taskId contract))
    (htouch : P (.touchSession url)) :
    (do
      let submit ← newEnvelope session.sessionId config.delegateId session.remoteDelegateId
        (.taskSubmit taskId task.skill task.input task.contract) session.payload.mode
      let _ ← sendSigned hmac config url submit
      storeContract taskId task.contract
      touch url
      pure (⟨taskId, url⟩ : TaskHandle) : ClientProgram TaskHandle).Uses R P := by
  apply newEnvelope_uses h.newV4 h.utcNowRfc3339
  intro submit hbody
  apply (sendSigned_uses (hsubmit submit hbody)).bind
  intro response
  exact (storeContract_uses hstore).bind fun _ => ⟨htouch, fun _ _ => uses_pure _⟩

theorem invoke_uses (h : Ordinary P) {task : TaskRequest}
    (hsession : (getOrEstablish hmac config url).Uses R P)
    (hsubmit : ∀ taskId, Sends hmac config P url
      (.taskSubmit taskId task.skill task.input task.contract))
    (hstore : ∀ taskId contract, task.contract = some contract →
      P (.insertContract taskId contract)) (htouch : P (.touchSession url)) :
    (invoke hmac config url task).Uses R P := by
  apply hsession.bind
  intro session
  exact ⟨h.newV4, fun taskId _ => submit_uses h (hsubmit taskId) (hstore taskId) htouch⟩

theorem validateContract_uses (h : P .utcNow) (contract : DelegationContract)
    (provenance : Provenance) :
    (validateContract parseRfc3339 contract provenance).Uses R P := by
  have hlate : (deadlineViolations parseRfc3339 contract).Uses R P := by
    unfold deadlineViolations
    split
    · exact ⟨h, fun _ _ => uses_pure _⟩
    · exact uses_pure _
  exact hlate.bind fun _ => uses_pure _

theorem completedEvent_uses (h : P .utcNow) (contract : Option DelegationContract)
    (output : Value) (provenance : Provenance) :
    (completedEvent parseRfc3339 config contract output provenance).Uses R P := by
  cases contract with
  | none => exact uses_pure _
  | some contract =>
      exact (validateContract_uses h contract provenance).bind fun _ => uses_pure _

theorem pollUpdates_uses (h : Ordinary P)
    (hquery : Sends hmac config P url (.taskUpdate taskId none (some "status_query")))
    (contract : Option DelegationContract) (ticks : ℕ) :
    (pollUpdates parseRfc3339 hmac config url taskId contract ticks).Uses R P := by
  induction ticks with
  | zero => exact uses_pure _
  | succ ticks ih =>
      unfold pollUpdates
      apply newEnvelope_uses h.newV4 h.utcNowRfc3339
      intro query hbody
      unfold SessionManager.sendMessage
      rw [call_bind]
      refine ⟨hquery query hbody, ?_⟩
      intro response _
      cases response with
      | error e => exact uses_pure _
      | ok envelope =>
          dsimp only
          split
          · exact ih.bind fun _ => uses_pure _
          · exact (completedEvent_uses h.utcNow contract _ _).bind fun _ => uses_pure _
          · exact uses_pure _
          · exact ih

theorem stream_uses (h : Ordinary P) {task : TaskRequest} {ticks : ℕ}
    (hinvoke : (invoke hmac config url task).Uses R P)
    (hquery : ∀ taskId, Sends hmac config P url
      (.taskUpdate taskId none (some "status_query"))) :
    (stream parseRfc3339 hmac config url task ticks).Uses R P :=
  hinvoke.bind fun handle => pollUpdates_uses h (hquery handle.taskId) task.contract ticks

theorem status_uses (h : Ordinary P)
    (hquery : Sends hmac config P url (.taskUpdate taskId none (some "status_query")))
    (hget : P (.getContract taskId)) :
    (status parseRfc3339 hmac config url taskId).Uses R P := by
  unfold status
  apply newEnvelope_uses h.newV4 h.utcNowRfc3339
  intro query hbody
  apply (sendSigned_uses (hquery query hbody)).bind
  intro response
  split
  · exact uses_pure _
  · refine ⟨hget, ?_⟩
    intro contract _
    cases contract with
    | none => exact uses_pure _
    | some contract => exact (validateContract_uses h.utcNow contract _).bind fun _ => uses_pure _
  · exact uses_pure _
  · exact uses_pure _

theorem cancel_uses (h : Ordinary P) (hcancel : Sends hmac config P url (.taskCancel taskId)) :
    (cancel hmac config url taskId).Uses R P := by
  apply newEnvelope_uses h.newV4 h.utcNowRfc3339
  intro cancelMsg hbody
  exact (sendSigned_uses (hcancel cancelMsg hbody)).bind fun _ => uses_pure _

end
end LdpProtocol.ClientQuestions
