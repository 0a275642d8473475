import LdpProtocol.DelegateGate
import LdpProtocol.PythonWire
import LdpProtocol.SigningAgreement

/-!
# What the delegate leaves unanswered

Past the signature check a message is answered whatever its body says, as long as
the lifecycle hooks return and the task handler raises nothing that passes through
`except Exception`. The check itself raises on a signature that is not ASCII.
-/
namespace LdpProtocol.DelegateAnswers
open InteractivePrograms InterferedRuns
open InteractivePrograms.Program (total_call total_pure totalOn_pure)
open JsonValues PayloadModes EnvelopeSigning PythonMessages PythonSigning
open PythonDelegate DelegateGate

/-- What the subclass may make of a task with a skill, an input and an id. -/
abbrev TaskHandler := String → Value → String → Except String TaskOutcome → Prop

/-- The lifecycle hooks return; the task handler does what it may. -/
def Behaves (handles : TaskHandler) : (q : DelegateCall) → q.Answer → Prop
  | .handleTask skill inputData taskId, a => handles skill inputData taskId a
  | .onSessionStart _ _, a => a = .ok ()
  | .onSessionEnd _ _, a => a = .ok ()
  | _, _ => True

/-- Every run of such a subclass ends with an envelope. -/
def Answers (display : Value → String) (hmac : Hmac) (d : LdpDelegate) (handles : TaskHandler)
    (envelope : LdpEnvelope) : Prop :=
  ∀ tr r, DelegateRun (d.handleMessage display hmac envelope) tr r →
    (∀ ev ∈ tr, Behaves handles ev.1 ev.2) → ∃ response, r = .ok response

abbrev Answering (handles : TaskHandler) {α : Type} (p : DelegateProgram α) : Prop :=
  p.TotalOn (Behaves handles)

/-- No exception of the task handler passes through, for an id that the message has or
that is drawn for it. -/
def Caught (handles : TaskHandler) (envelope : LdpEnvelope) : Prop :=
  ∀ taskId, (truthy envelope.body.taskId = true →
      taskId = LdpDelegate.orEmpty envelope.body.taskId) →
    ∀ e, ¬ handles (LdpDelegate.orEmpty envelope.body.skill) envelope.body.input taskId (.error e)

section Handlers
variable (d : LdpDelegate) (display : Value → String) (envelope : LdpEnvelope)
  {handles : TaskHandler}

theorem create_answers (sessionId : String) (body : LdpMessageBody) (payloadMode : PayloadMode) :
    Answering handles (d.create envelope sessionId body payloadMode) :=
  (create_total d envelope _ _ _).totalOn

theorem raiseHook_answers {answer : Except String Unit} (h : answer = .ok ()) :
    Answering handles (raiseHook answer) := by
  subst h
  exact totalOn_pure ()

theorem onSessionStart_answers (sessionId : String) (negotiated : NegotiatedPayload) :
    Answering handles (onSessionStart sessionId negotiated) :=
  fun _ h => raiseHook_answers h

theorem onSessionEnd_answers (sessionId reason : String) :
    Answering handles (onSessionEnd sessionId reason) :=
  fun _ h => raiseHook_answers h

theorem handleSessionPropose_answers :
    Answering handles (d.handleSessionPropose display envelope) := by
  unfold LdpDelegate.handleSessionPropose
  split
  · apply (total_call _).totalOn.bind
    intro sessionId
    apply (total_call _).totalOn.bind
    intro registered
    apply (create_answers d envelope _ _ _).bind
    intro accept
    apply (onSessionStart_answers _ _).bind
    intro _
    exact totalOn_pure accept
  · exact create_answers d envelope _ _ _

/-- A caught exception of the task handler becomes a failure of the task. -/
theorem handleTask_answers {taskId : String} (h : ∀ e, ¬ handles
    (LdpDelegate.orEmpty envelope.body.skill) envelope.body.input taskId (.error e)) :
    Answering handles (handleTask (LdpDelegate.orEmpty envelope.body.skill) envelope.body.input
      taskId) := by
  intro answer hanswer
  cases answer with
  | ok outcome => exact totalOn_pure outcome
  | error e => exact (h e hanswer).elim

theorem taskIdOrNew_answers {next : String → DelegateProgram LdpEnvelope}
    (h : ∀ taskId, (truthy envelope.body.taskId = true →
      taskId = LdpDelegate.orEmpty envelope.body.taskId) → Answering handles (next taskId)) :
    Answering handles (LdpDelegate.taskIdOrNew envelope >>= next) := by
  unfold LdpDelegate.taskIdOrNew
  split
  · exact h _ fun _ => rfl
  · next hmissing =>
      apply (total_call _).totalOn.bind
      intro taskId
      exact h taskId fun hid => (hmissing hid).elim

theorem handleTaskSubmit_answers (h : Caught handles envelope) :
    Answering handles (d.handleTaskSubmit envelope) := by
  unfold LdpDelegate.handleTaskSubmit
  apply taskIdOrNew_answers
  intro taskId hid
  apply (handleTask_answers envelope (h taskId hid)).bind
  intro outcome
  cases outcome with
  | ok result =>
      apply (total_call _).totalOn.bind
      intro timestamp
      exact create_answers d envelope _ _ _
  | error e => exact create_answers d envelope _ _ _

theorem handleSessionClose_answers : Answering handles (d.handleSessionClose envelope) := by
  unfold LdpDelegate.handleSessionClose
  apply (onSessionEnd_answers _ _).bind
  intro _
  exact create_answers d envelope _ _ _

theorem dispatch_answers (h : envelope.body.type = "TASK_SUBMIT" → Caught handles envelope) :
    Answering handles (d.dispatch display envelope) := by
  unfold LdpDelegate.dispatch
  split
  · exact create_answers d envelope _ _ _
  · split
    · exact handleSessionPropose_answers d display envelope
    · split
      · next hsubmit => exact handleTaskSubmit_answers d envelope (h hsubmit)
      · split
        · exact create_answers d envelope _ _ _
        · split
          · exact handleSessionClose_answers d envelope
          · exact create_answers d envelope _ _ _

end Handlers

/-- The signature check can compare what the message carries. -/
def Comparable (d : LdpDelegate) (envelope : LdpEnvelope) : Prop :=
  truthy d.signingSecret = true →
    ∀ signature, envelope.signature = some signature → isAscii signature = true

section Message
variable {hmac : Hmac} {d : LdpDelegate} {envelope : LdpEnvelope}

/-- The expected signature is always ASCII, so the given one decides. -/
theorem verifyEnvelope_returns_iff (secret signature : String) :
    (∃ passes, PythonSigning.verifyEnvelope hmac envelope secret signature = .ok passes) ↔
      isAscii signature = true := by
  have hexpected : isAscii (PythonSigning.signEnvelope hmac envelope secret) = true :=
    SigningAgreement.isAscii_hexEncode _
  unfold PythonSigning.verifyEnvelope
  cases isAscii signature with
  | true => simp [hexpected]
  | false => simp

theorem signaturePasses_returns_iff (hmac : Hmac) :
    (∃ passes, d.signaturePasses hmac envelope = .ok passes) ↔ Comparable d envelope := by
  unfold LdpDelegate.signaturePasses Comparable
  cases d.signingSecret with
  | none => simp [truthy]
  | some secret =>
      cases envelope.signature with
      | none => simp
      | some signature =>
          by_cases hskip : secret = "" ∨ signature = ""
          · have hascii : secret ≠ "" → isAscii signature = true := by
              intro hsecret
              rw [hskip.resolve_left hsecret]
              rfl
            simpa [hskip, truthy] using hascii
          · obtain ⟨hsecret, hsignature⟩ := not_or.mp hskip
            simpa [hsecret, hsignature, truthy] using verifyEnvelope_returns_iff secret signature

/-- No exception of the task handler passes through a submission that is performed. -/
def CaughtIfPerformed (hmac : Hmac) (d : LdpDelegate) (handles : TaskHandler)
    (envelope : LdpEnvelope) : Prop :=
  envelope.body.type = "TASK_SUBMIT" → d.signaturePasses hmac envelope = .ok true →
    Caught handles envelope

theorem handleMessage_answers (display : Value → String) (h : Comparable d envelope)
    {handles : TaskHandler} (hcaught : CaughtIfPerformed hmac d handles envelope) :
    Answering handles (d.handleMessage display hmac envelope) := by
  obtain ⟨passes, hpasses⟩ := (signaturePasses_returns_iff hmac).mpr h
  unfold LdpDelegate.handleMessage
  rw [hpasses]
  cases passes with
  | true =>
      apply (dispatch_answers d display envelope fun hsubmit => hcaught hsubmit hpasses).bind
      intro response
      exact totalOn_pure _
  | false => exact create_answers d envelope _ _ _

/-- What passes through `except Exception` passes through the delegate. -/
theorem handleMessage_escapes (display : Value → String) {handles : TaskHandler}
    {taskId e : String} (hsubmit : envelope.body.type = "TASK_SUBMIT")
    (hpasses : d.signaturePasses hmac envelope = .ok true)
    (hid : truthy envelope.body.taskId = true → taskId = LdpDelegate.orEmpty envelope.body.taskId)
    (he : handles (LdpDelegate.orEmpty envelope.body.skill) envelope.body.input taskId (.error e)) :
    ∃ tr, DelegateRun (d.handleMessage display hmac envelope) tr (.error (.hook e)) ∧
      ∀ ev ∈ tr, Behaves handles ev.1 ev.2 := by
  have hdispatch : d.dispatch display envelope = d.handleTaskSubmit envelope := by
    unfold LdpDelegate.dispatch
    rw [hsubmit]
    rfl
  rw [handleMessage_passed hpasses, hdispatch]
  unfold LdpDelegate.handleTaskSubmit LdpDelegate.taskIdOrNew
  split
  · next htruthy =>
      rw [hid htruthy] at he
      refine ⟨_, quiet_ask.mpr ⟨.error e, (), [], trivial,
        quiet_throw.mpr ⟨rfl, rfl, rfl⟩, rfl⟩, ?_⟩
      intro ev hev
      rw [List.mem_singleton.mp hev]
      exact he
  · refine ⟨_, quiet_ask.mpr ⟨taskId, (), _, trivial, quiet_ask.mpr ⟨.error e, (), [], trivial,
      quiet_throw.mpr ⟨rfl, rfl, rfl⟩, rfl⟩, rfl⟩, ?_⟩
    intro ev hev
    rcases List.mem_cons.mp hev with rfl | hev
    · trivial
    · rw [List.mem_singleton.mp hev]
      exact he

/-- When the check raises, so does the delegate, before it asks anything. -/
theorem handleMessage_raises (display : Value → String) (hmac : Hmac)
    (h : ¬ Comparable d envelope) :
    ∃ e, DelegateRun (d.handleMessage display hmac envelope) [] (.error e) := by
  rw [← signaturePasses_returns_iff hmac] at h
  cases hpasses : d.signaturePasses hmac envelope with
  | ok passes => exact (h ⟨passes, hpasses⟩).elim
  | error e =>
      refine ⟨e, ?_⟩
      unfold LdpDelegate.handleMessage
      rw [hpasses]
      exact .throw e ()

end Message

/-- A document with a signature of one accented letter. -/
def accented : Value := .object
  [("message_id", .string "m1"), ("timestamp", .string "t0"), ("session_id", .string ""),
    ("from", .string "ldp:a"), ("to", .string "ldp:b"),
    ("body", .object [("type", .string "HELLO")]), ("signature", .string "é")]

end LdpProtocol.DelegateAnswers
