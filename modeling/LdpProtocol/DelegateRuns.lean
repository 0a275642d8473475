import LdpProtocol.DelegateGate

/-!
# Which tasks a delegate runs

The task handler of the subclass is called once for a submission that passes the
signature check and for no other message, whatever was proposed before. A
session is accepted only for a declared domain that the delegate trusts.
-/
namespace LdpProtocol.DelegateRuns
open InteractivePrograms InterferedRuns
open InteractivePrograms.Program (pure_eq uses_pure uses_throw)
open JsonValues PayloadModes EnvelopeSigning PythonMessages PythonSigning PythonIdentity
open PythonDelegate DelegateGate

/-- The task a question hands to the subclass, if it is one. -/
def taskCall (ev : Event DelegateCall DelegateCall.Answer) : Option (String × Value) :=
  match ev.1 with
  | .handleTask skill inputData _ => some (skill, inputData)
  | _ => none

def taskCalls (tr : Trace) : List (String × Value) := tr.filterMap taskCall

def IsTask : DelegateCall → Prop
  | .handleTask _ _ _ => True
  | _ => False

abbrev RunsNoTask {α : Type} (p : DelegateProgram α) : Prop :=
  p.Uses (fun _ _ => True) fun q => ¬ IsTask q

theorem taskCalls_of_runsNoTask {α : Type} {p : DelegateProgram α} (hp : RunsNoTask p)
    {tr : Trace} {r : Except Raised α} (h : Run DelegateCall.Meaning Quiet p () tr () r) :
    taskCalls tr = [] := by
  have hev := h.events (fun _ _ _ _ _ _ => trivial) hp
  unfold taskCalls
  rw [List.filterMap_eq_nil_iff]
  intro ev hmem
  have hno := hev ev hmem
  obtain ⟨q, a⟩ := ev
  cases q with
  | handleTask => exact (hno trivial).elim
  | _ => rfl

section Handlers
variable (d : LdpDelegate) (display : Value → String) (envelope : LdpEnvelope)

theorem create_runsNoTask (sessionId : String) (body : LdpMessageBody)
    (payloadMode : PayloadMode) : RunsNoTask (d.create envelope sessionId body payloadMode) :=
  (create_neverCallsBack d envelope ..).mono fun q hq hask => by
    cases q <;> first | exact hask | exact hq trivial

theorem raiseHook_runsNoTask {α : Type} (r : Except String α) : RunsNoTask (raiseHook r) := by
  cases r with
  | ok => exact uses_pure _
  | error => exact uses_throw _

theorem handleSessionPropose_runsNoTask :
    RunsNoTask (d.handleSessionPropose display envelope) := by
  unfold LdpDelegate.handleSessionPropose onSessionStart
  split
  · refine ⟨id, fun sessionId _ => ⟨id, fun registered _ => ?_⟩⟩
    apply (create_runsNoTask d envelope _ _ _).bind
    intro accept
    exact ⟨id, fun answer _ => (raiseHook_runsNoTask answer).bind fun _ => uses_pure _⟩
  · exact create_runsNoTask ..

theorem handleSessionClose_runsNoTask : RunsNoTask (d.handleSessionClose envelope) :=
  ⟨id, fun answer _ => (raiseHook_runsNoTask answer).bind fun _ => create_runsNoTask ..⟩

theorem taskIdOrNew_runsNoTask : RunsNoTask (LdpDelegate.taskIdOrNew envelope) := by
  unfold LdpDelegate.taskIdOrNew
  split
  · exact uses_pure _
  · exact ⟨id, fun _ _ => uses_pure _⟩

theorem taskCalls_append (tr₁ tr₂ : Trace) :
    taskCalls (tr₁ ++ tr₂) = taskCalls tr₁ ++ taskCalls tr₂ := List.filterMap_append

theorem handleTaskSubmit_taskCalls {tr : Trace} {r : Except Raised LdpEnvelope}
    (h : DelegateRun (d.handleTaskSubmit envelope) tr r) :
    taskCalls tr = [(LdpDelegate.orEmpty envelope.body.skill, envelope.body.input)] := by
  unfold LdpDelegate.handleTaskSubmit at h
  rcases h.of_bind with ⟨taskId, _, tr₁, tr₂, h₁, h₂, htr⟩ | ⟨e, h₁, _⟩
  · have hpre := taskCalls_of_runsNoTask (taskIdOrNew_runsNoTask envelope) h₁
    rw [htr, taskCalls_append, hpre]
    rcases handleTask_run h₂ with ⟨e, htr₂, _⟩ | ⟨outcome, tr₃, htr₂, h₃⟩
    · rw [htr₂]
      rfl
    · have hpost : taskCalls tr₃ = [] := by
        apply taskCalls_of_runsNoTask _ h₃
        cases outcome with
        | ok result => exact ⟨id, fun _ _ => create_runsNoTask ..⟩
        | error e => exact create_runsNoTask ..
      rw [htr₂]
      exact congrArg (List.cons (LdpDelegate.orEmpty envelope.body.skill, envelope.body.input)) hpost
  · obtain ⟨a, ha⟩ := h₁.ok_of_total (taskIdOrNew_total envelope)
    cases ha

theorem dispatch_taskCalls {tr : Trace} {r : Except Raised LdpEnvelope}
    (h : DelegateRun (d.dispatch display envelope) tr r) :
    taskCalls tr = if envelope.body.type = "TASK_SUBMIT" then
      [(LdpDelegate.orEmpty envelope.body.skill, envelope.body.input)] else [] := by
  by_cases hsubmit : envelope.body.type = "TASK_SUBMIT"
  · unfold LdpDelegate.dispatch at h
    simp only [hsubmit, String.reduceEq, if_true, if_false] at h ⊢
    exact handleTaskSubmit_taskCalls d envelope h
  · rw [if_neg hsubmit]
    apply taskCalls_of_runsNoTask _ h
    unfold LdpDelegate.dispatch
    split
    · exact create_runsNoTask ..
    · split
      · exact handleSessionPropose_runsNoTask ..
      · split
        · exact create_runsNoTask ..
        · split
          · exact handleSessionClose_runsNoTask ..
          · exact create_runsNoTask ..

/-- A dispatched message is answered with an acceptance only if it is a proposal
from a trusted domain. -/
theorem dispatch_accept {tr : Trace} {response : LdpEnvelope}
    (h : DelegateRun (d.dispatch display envelope) tr (.ok response))
    (ha : response.body.type = "SESSION_ACCEPT") :
    envelope.body.type = "SESSION_PROPOSE" ∧
      d.trustsValue (LdpDelegate.remoteDomain envelope) = true := by
  have hcreated : ∀ {sessionId : String} {body : LdpMessageBody} {mode : PayloadMode} {tr : Trace},
      DelegateRun (d.create envelope sessionId body mode) tr (.ok response) →
      body.type = "SESSION_ACCEPT" := by
    intro sessionId body mode tr hrun
    obtain ⟨_, messageId, timestamp, hr⟩ := create_run d envelope hrun
    cases hr
    exact ha
  unfold LdpDelegate.dispatch at h
  split at h
  · exact absurd (show "CAPABILITY_MANIFEST" = "SESSION_ACCEPT" from hcreated h) (by decide)
  · split at h
    · next hpropose =>
        refine ⟨hpropose, ?_⟩
        unfold LdpDelegate.handleSessionPropose at h
        split at h
        · assumption
        · exact absurd (show "SESSION_REJECT" = "SESSION_ACCEPT" from hcreated h) (by decide)
    · split at h
      · unfold LdpDelegate.handleTaskSubmit at h
        rcases h.of_bind with ⟨taskId, _, _, _, _, h₂, _⟩ | ⟨e, _, hr⟩
        · rcases handleTask_run h₂ with ⟨_, _, hr⟩ | ⟨outcome, _, _, h₃⟩
          · cases hr
          · cases outcome with
            | ok result =>
                obtain ⟨_, _, _, _, h₄, _⟩ := quiet_ask.mp h₃
                exact absurd (show "TASK_RESULT" = "SESSION_ACCEPT" from hcreated h₄) (by decide)
            | error e =>
                have htype : "TASK_FAILED" = "SESSION_ACCEPT" := hcreated h₃
                exact absurd htype (by decide)
        · cases hr
      · split at h
        · exact absurd (show "TASK_UPDATE" = "SESSION_ACCEPT" from hcreated h) (by decide)
        · split at h
          · unfold LdpDelegate.handleSessionClose onSessionEnd at h
            obtain ⟨answer, _, _, _, h₂, _⟩ := quiet_ask.mp h
            cases answer with
            | ok =>
                have htype : "SESSION_CLOSE" = "SESSION_ACCEPT" := hcreated h₂
                exact absurd htype (by decide)
            | error e =>
                have hr := (quiet_throw.mp h₂).2.2
                cases hr
          · exact absurd (show "TASK_FAILED" = "SESSION_ACCEPT" from hcreated h) (by decide)

end Handlers

/-- The tasks a message is due to run. -/
def dueTasks (hmac : Hmac) (d : LdpDelegate) (envelope : LdpEnvelope) : List (String × Value) :=
  match d.signaturePasses hmac envelope with
  | .ok true =>
      if envelope.body.type = "TASK_SUBMIT" then
        [(LdpDelegate.orEmpty envelope.body.skill, envelope.body.input)]
      else []
  | _ => []

section Message
variable {display : Value → String} {hmac : Hmac} {d : LdpDelegate} {envelope : LdpEnvelope}
  {tr : Trace}

theorem handleMessage_taskCalls {r : Except Raised LdpEnvelope}
    (h : DelegateRun (d.handleMessage display hmac envelope) tr r) :
    taskCalls tr = dueTasks hmac d envelope := by
  unfold dueTasks
  cases hp : d.signaturePasses hmac envelope with
  | error e =>
      unfold LdpDelegate.handleMessage at h
      rw [hp] at h
      rw [(quiet_throw.mp h).2.1]
      rfl
  | ok passes =>
      cases passes with
      | false =>
          unfold LdpDelegate.handleMessage at h
          rw [hp] at h
          exact taskCalls_of_runsNoTask (create_runsNoTask d envelope _ _ _) h
      | true =>
          rw [handleMessage_passed hp] at h
          rcases h.of_bind with ⟨response, _, tr₁, tr₂, h₁, h₂, htr⟩ | ⟨e, h₁, _⟩
          · simp only [pure_eq, quiet_pure] at h₂
            rw [htr, h₂.2.1, List.append_nil]
            exact dispatch_taskCalls d display envelope h₁
          · exact dispatch_taskCalls d display envelope h₁

theorem handleMessage_accept {response : LdpEnvelope}
    (h : DelegateRun (d.handleMessage display hmac envelope) tr (.ok response))
    (ha : response.body.type = "SESSION_ACCEPT") :
    envelope.body.type = "SESSION_PROPOSE" ∧
      d.trustsValue (LdpDelegate.remoteDomain envelope) = true := by
  cases hp : d.signaturePasses hmac envelope with
  | error e =>
      unfold LdpDelegate.handleMessage at h
      rw [hp] at h
      have hr := (quiet_throw.mp h).2.2
      cases hr
  | ok passes =>
      cases passes with
      | false =>
          unfold LdpDelegate.handleMessage at h
          rw [hp] at h
          obtain ⟨_, messageId, timestamp, hr⟩ := create_run d envelope h
          cases hr
          exact absurd (show "TASK_FAILED" = "SESSION_ACCEPT" from ha) (by decide)
      | true =>
          rw [handleMessage_passed hp] at h
          rcases h.of_bind with ⟨answer, _, tr₁, tr₂, h₁, h₂, _⟩ | ⟨e, _, hr⟩
          · simp only [pure_eq, quiet_pure] at h₂
            have hr := h₂.2.2
            cases hr
            rw [PythonSigning.signIfConfigured_body] at ha
            exact dispatch_accept d display envelope h₁ ha
          · cases hr

end Message
end LdpProtocol.DelegateRuns
