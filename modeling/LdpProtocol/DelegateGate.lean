import LdpProtocol.PythonDelegate

/-!
# The delegate's signature gate

A message with a non-empty signature reaches no callback unless it verifies. A
message without one skips the check, and the four types that call the subclass
or commit to something are then answered as if they were authenticated.
-/
namespace LdpProtocol.DelegateGate
open InteractivePrograms InterferedRuns
open InteractivePrograms.Program (call_bind pure_eq uses_pure uses_throw total_call total_pure)
open JsonValues PayloadModes EnvelopeSigning PythonMessages PythonSigning PythonIdentity
open PythonDelegate

abbrev Trace := List (Event DelegateCall DelegateCall.Answer)

abbrev DelegateRun (p : DelegateProgram LdpEnvelope) (tr : Trace) (r : Except Raised LdpEnvelope) :
    Prop := Run DelegateCall.Meaning Quiet p () tr () r

/-- The subclass was called during the run. -/
def CallsBack (tr : Trace) : Prop := ∃ ev ∈ tr, ev.1.IsCallback

/-- The message was turned away: nothing of the subclass ran, and the caller
got an exception or a failure. -/
def Refused (tr : Trace) (r : Except Raised LdpEnvelope) : Prop :=
  ¬ CallsBack tr ∧ ∀ response, r = .ok response → response.body.type = "TASK_FAILED"

/-- The message types that must not go unauthenticated. -/
def gatedTypes : List String := ["TASK_SUBMIT", "SESSION_PROPOSE", "SESSION_CLOSE", "TASK_CANCEL"]

def Authenticated (hmac : Hmac) (secret : String) (envelope : LdpEnvelope) : Prop :=
  ∃ signature, envelope.signature = some signature ∧ signature ≠ "" ∧
    PythonSigning.verifyEnvelope hmac envelope secret signature = .ok true

/-- Callbacks only for authenticated messages, and no unsigned message of a
gated type is accepted. -/
def Gated (display : Value → String) (hmac : Hmac) (d : LdpDelegate) (secret : String)
    (envelope : LdpEnvelope) : Prop :=
  ∀ tr r, DelegateRun (d.handleMessage display hmac envelope) tr r →
    (CallsBack tr → Authenticated hmac secret envelope) ∧
    (envelope.body.type ∈ gatedTypes → truthy envelope.signature = false → Refused tr r)

section Handlers
variable (d : LdpDelegate) (display : Value → String) (envelope : LdpEnvelope)

abbrev NeverCallsBack {α : Type} (p : DelegateProgram α) : Prop :=
  p.Uses (fun _ _ => True) fun q => ¬ q.IsCallback

theorem create_neverCallsBack (sessionId : String) (body : LdpMessageBody)
    (payloadMode : PayloadMode) :
    NeverCallsBack (d.create envelope sessionId body payloadMode) := by
  simp [LdpDelegate.create, uuid4, isoNow, DelegateCall.IsCallback]

theorem create_run {sessionId : String} {body : LdpMessageBody} {payloadMode : PayloadMode}
    {tr : Trace} {r : Except Raised LdpEnvelope}
    (h : DelegateRun (d.create envelope sessionId body payloadMode) tr r) :
    ¬ CallsBack tr ∧ ∃ messageId timestamp, r = .ok (LdpEnvelope.create messageId timestamp
      sessionId d.identity.delegateId envelope.from_ body payloadMode) := by
  constructor
  · intro hcb
    obtain ⟨ev, hev, hcall⟩ := hcb
    exact h.events (fun _ _ _ _ _ _ => trivial) (create_neverCallsBack d envelope ..) ev hev hcall
  · unfold LdpDelegate.create uuid4 isoNow at h
    simp only [call_bind, pure_eq, quiet_ask, quiet_pure] at h
    obtain ⟨messageId, _, _, _, ⟨timestamp, _, _, _, ⟨_, _, hr⟩, _⟩, _⟩ := h
    exact ⟨messageId, timestamp, hr⟩

theorem dispatch_neverCallsBack (h : envelope.body.type ∉ gatedTypes) :
    NeverCallsBack (d.dispatch display envelope) := by
  simp only [gatedTypes, List.mem_cons, List.not_mem_nil, or_false, not_or] at h
  obtain ⟨hsubmit, hpropose, hclose, hcancel⟩ := h
  unfold LdpDelegate.dispatch
  rw [if_neg hpropose, if_neg hsubmit, if_neg hcancel, if_neg hclose]
  split
  · exact create_neverCallsBack ..
  · exact create_neverCallsBack ..

theorem callsBack_append {tr₁ tr₂ : Trace} (h : CallsBack tr₁ ∨ CallsBack tr₂) :
    CallsBack (tr₁ ++ tr₂) := by
  rcases h with ⟨ev, hev, hcall⟩ | ⟨ev, hev, hcall⟩
  · exact ⟨ev, List.mem_append_left _ hev, hcall⟩
  · exact ⟨ev, List.mem_append_right _ hev, hcall⟩

/-- A program that starts with a callback has called back in every run. -/
theorem callsBack_of_ask {α : Type} {q : DelegateCall} {next : q.Answer → DelegateProgram α}
    {tr : Trace} {r : Except Raised α}
    (h : Run DelegateCall.Meaning Quiet (.ask q next) () tr () r) (hq : q.IsCallback) :
    CallsBack tr := by
  obtain ⟨a, t, tr₁, _, _, htr⟩ := quiet_ask.mp h
  rw [htr]
  exact ⟨⟨q, a⟩, List.mem_cons_self, hq⟩

theorem callsBack_of_bind {α β : Type} {p : DelegateProgram α} (hp : p.Total)
    {f : α → DelegateProgram β} {tr : Trace} {r : Except Raised β}
    (hf : ∀ a tr r, Run DelegateCall.Meaning Quiet (f a) () tr () r → CallsBack tr)
    (h : Run DelegateCall.Meaning Quiet (p >>= f) () tr () r) : CallsBack tr := by
  rcases h.of_bind with ⟨a, _, tr₁, tr₂, _, h₂, htr⟩ | ⟨e, h₁, _⟩
  · rw [htr]
    exact callsBack_append (.inr (hf a tr₂ r h₂))
  · obtain ⟨a, ha⟩ := h₁.ok_of_total hp
    cases ha

theorem taskIdOrNew_total : (LdpDelegate.taskIdOrNew envelope).Total := by
  unfold LdpDelegate.taskIdOrNew
  split
  · exact total_pure _
  · exact total_call _

theorem create_total (sessionId : String) (body : LdpMessageBody) (payloadMode : PayloadMode) :
    (d.create envelope sessionId body payloadMode).Total :=
  (total_call _).bind fun _ => (total_call _).bind fun _ => total_pure _

/-- The task handler has an outcome, or an exception of it passes through. -/
theorem handleTask_run {α : Type} {skill taskId : String} {inputData : Value}
    {next : TaskOutcome → DelegateProgram α} {tr : Trace} {r : Except Raised α}
    (h : Run DelegateCall.Meaning Quiet (handleTask skill inputData taskId >>= next) () tr () r) :
    (∃ e, tr = [⟨.handleTask skill inputData taskId, .error e⟩] ∧ r = .error (.hook e)) ∨
      ∃ outcome rest, tr = ⟨.handleTask skill inputData taskId, .ok outcome⟩ :: rest ∧
        Run DelegateCall.Meaning Quiet (next outcome) () rest () r := by
  obtain ⟨answer, _, rest, _, hrest, htr⟩ := quiet_ask.mp h
  cases answer with
  | error e =>
      obtain ⟨_, hnil, hr⟩ := quiet_throw.mp hrest
      exact .inl ⟨e, by rw [htr, hnil], hr⟩
  | ok outcome => exact .inr ⟨outcome, rest, htr, hrest⟩

theorem handleTaskSubmit_callsBack {tr : Trace} {r : Except Raised LdpEnvelope}
    (h : DelegateRun (d.handleTaskSubmit envelope) tr r) : CallsBack tr := by
  unfold LdpDelegate.handleTaskSubmit at h
  apply callsBack_of_bind (taskIdOrNew_total envelope) _ h
  intro taskId tr r hrun
  exact callsBack_of_ask hrun trivial

theorem handleSessionClose_callsBack {tr : Trace} {r : Except Raised LdpEnvelope}
    (h : DelegateRun (d.handleSessionClose envelope) tr r) : CallsBack tr := by
  unfold LdpDelegate.handleSessionClose onSessionEnd at h
  exact callsBack_of_ask h trivial

theorem handleSessionPropose_callsBack (ht : d.trustsValue (LdpDelegate.remoteDomain envelope))
    {tr : Trace} {r : Except Raised LdpEnvelope}
    (h : DelegateRun (d.handleSessionPropose display envelope) tr r) : CallsBack tr := by
  unfold LdpDelegate.handleSessionPropose onSessionStart at h
  rw [if_pos ht] at h
  apply callsBack_of_bind (total_call _) _ h
  intro sessionId tr r hrun
  apply callsBack_of_bind (total_call _) _ hrun
  intro registered tr r hrun
  apply callsBack_of_bind (create_total d envelope _ _ _) _ hrun
  intro accept tr r hrun
  exact callsBack_of_ask hrun trivial

/-- Past the gate no message of the gated types is turned away. -/
theorem dispatch_not_refused (h : envelope.body.type ∈ gatedTypes) {tr : Trace}
    {r : Except Raised LdpEnvelope} (hrun : DelegateRun (d.dispatch display envelope) tr r) :
    ¬ Refused tr r := by
  intro hrefused
  obtain ⟨hnone, hfailed⟩ := hrefused
  simp only [gatedTypes, List.mem_cons, List.not_mem_nil, or_false] at h
  unfold LdpDelegate.dispatch at hrun
  rcases h with h | h | h | h <;> simp only [h, String.reduceEq, if_true, if_false] at hrun
  · exact hnone (handleTaskSubmit_callsBack d envelope hrun)
  · by_cases ht : d.trustsValue (LdpDelegate.remoteDomain envelope) = true
    · exact hnone (handleSessionPropose_callsBack d display envelope ht hrun)
    · unfold LdpDelegate.handleSessionPropose at hrun
      rw [if_neg ht] at hrun
      obtain ⟨_, messageId, timestamp, hr⟩ := create_run d envelope hrun
      have htype : "SESSION_REJECT" = "TASK_FAILED" := hfailed _ hr
      exact absurd htype (by decide)
  · exact hnone (handleSessionClose_callsBack d envelope hrun)
  · obtain ⟨_, messageId, timestamp, hr⟩ := create_run d envelope hrun
    have htype : "TASK_UPDATE" = "TASK_FAILED" := hfailed _ hr
    exact absurd htype (by decide)

end Handlers

/-- Surroundings in which nothing raises. -/
def obliging : (q : DelegateCall) → Unit → q.Answer × Unit
  | .uuid4, _ => ("9f1c1f0e-6f7e-4a0b-9a55-0d6a3b1c2d4e", ())
  | .isoNow, _ => ("1970-01-01T00:00:00+00:00", ())
  | .registeredModes, _ => ([], ())
  | .handleTask _ inputData _, _ => (.ok (.ok (inputData, 1)), ())
  | .onSessionStart _ _, _ => (.ok (), ())
  | .onSessionEnd _ _, _ => (.ok (), ())

theorem exists_run (p : DelegateProgram LdpEnvelope) : ∃ tr r, DelegateRun p tr r :=
  ⟨_, _, exec_run obliging (fun _ _ => trivial) p ()⟩

section Message
variable {display : Value → String} {hmac : Hmac} {d : LdpDelegate} {envelope : LdpEnvelope}

theorem handleMessage_passed (h : d.signaturePasses hmac envelope = .ok true) :
    d.handleMessage display hmac envelope = (do
      let response ← d.dispatch display envelope
      pure (PythonSigning.signIfConfigured hmac d.signingSecret response)) := by
  unfold LdpDelegate.handleMessage
  rw [h]
  rfl

theorem signaturePasses_unsigned (h : truthy envelope.signature = false) :
    d.signaturePasses hmac envelope = .ok true := by
  unfold LdpDelegate.signaturePasses
  cases hsig : envelope.signature with
  | none => cases d.signingSecret <;> rfl
  | some signature =>
      rw [hsig] at h
      have hempty : signature = "" := by simpa [truthy] using h
      cases d.signingSecret with
      | none => rfl
      | some secret => simp [hempty]

/-- Signing the response changes neither its type nor the callbacks. -/
theorem passed_not_refused (hpass : d.signaturePasses hmac envelope = .ok true)
    (h : envelope.body.type ∈ gatedTypes) {tr : Trace} {r : Except Raised LdpEnvelope}
    (hrun : DelegateRun (d.handleMessage display hmac envelope) tr r) : ¬ Refused tr r := by
  rw [handleMessage_passed hpass] at hrun
  rcases hrun.of_bind with ⟨response, _, tr₁, tr₂, h₁, h₂, htr⟩ | ⟨e, h₁, hr⟩
  · simp only [pure_eq, quiet_pure] at h₂
    obtain ⟨_, htr₂, hr⟩ := h₂
    subst htr₂
    subst hr
    rw [List.append_nil] at htr
    subst htr
    intro hrefused
    apply dispatch_not_refused d display envelope h h₁
    refine ⟨hrefused.1, ?_⟩
    intro response' heq
    cases heq
    have htype := hrefused.2 _ rfl
    rw [PythonSigning.signIfConfigured_body] at htype
    exact htype
  · subst hr
    exact dispatch_not_refused d display envelope h h₁

theorem passed_neverCallsBack (hpass : d.signaturePasses hmac envelope = .ok true)
    (h : envelope.body.type ∉ gatedTypes) :
    NeverCallsBack (d.handleMessage display hmac envelope) := by
  rw [handleMessage_passed hpass]
  exact (dispatch_neverCallsBack d display envelope h).bind fun _ => uses_pure _

/-- A non-empty signature that does not verify keeps every callback away. -/
theorem unverified_neverCallsBack (h : d.signaturePasses hmac envelope ≠ .ok true) :
    NeverCallsBack (d.handleMessage display hmac envelope) := by
  unfold LdpDelegate.handleMessage
  cases hp : d.signaturePasses hmac envelope with
  | error e => exact uses_throw _
  | ok b =>
      cases b with
      | true => exact (h hp).elim
      | false => exact create_neverCallsBack ..

theorem not_callsBack_of_run {p : DelegateProgram LdpEnvelope} (hp : NeverCallsBack p)
    {tr : Trace} {r : Except Raised LdpEnvelope} (h : DelegateRun p tr r) : ¬ CallsBack tr := by
  intro hcb
  obtain ⟨ev, hev, hcall⟩ := hcb
  exact h.events (fun _ _ _ _ _ _ => trivial) hp ev hev hcall

end Message

/-- With a secret, the gate does what it is there for exactly on the messages
that carry a non-empty signature or are of another type. -/
theorem gated_iff (display : Value → String) (hmac : Hmac) (d : LdpDelegate) (secret : String)
    (envelope : LdpEnvelope) (hs : d.signingSecret = some secret) (hne : secret ≠ "") :
    Gated display hmac d secret envelope ↔
      truthy envelope.signature = true ∨ envelope.body.type ∉ gatedTypes := by
  constructor
  · intro h
    by_contra hcon
    simp only [not_or, Bool.not_eq_true, not_not] at hcon
    obtain ⟨hunsigned, htype⟩ := hcon
    obtain ⟨tr, r, hrun⟩ := exists_run (d.handleMessage display hmac envelope)
    exact passed_not_refused (signaturePasses_unsigned hunsigned) htype hrun
      ((h tr r hrun).2 htype hunsigned)
  · intro hcond tr r hrun
    cases htruthy : truthy envelope.signature with
    | true =>
        refine ⟨?_, fun _ hfalse => by cases hfalse⟩
        intro hcb
        by_contra hnot
        apply not_callsBack_of_run _ hrun hcb
        apply unverified_neverCallsBack
        intro hpass
        apply hnot
        cases hsig : envelope.signature with
        | none =>
            rw [hsig] at htruthy
            cases htruthy
        | some signature =>
            rw [hsig] at htruthy
            have hne' : signature ≠ "" := by simpa [truthy] using htruthy
            refine ⟨signature, hsig, hne', ?_⟩
            unfold LdpDelegate.signaturePasses at hpass
            simpa [hs, hsig, hne, hne'] using hpass
    | false =>
        have htype := hcond.resolve_left (by simp [htruthy])
        have hnone := not_callsBack_of_run
          (passed_neverCallsBack (signaturePasses_unsigned htruthy) htype) hrun
        exact ⟨fun hcb => (hnone hcb).elim, fun hin => (htype hin).elim⟩

def signingDelegate : LdpDelegate where
  identity := {
    delegateId := "ldp:b"
    name := "B"
    modelFamily := "TestModel"
    modelVersion := "1.0"
    trustDomain := { name := "default" }
    contextWindow := 128000 }
  signingSecret := some "secret"

def submission (signature : Option String) : LdpEnvelope :=
  { messageId := "m1", timestamp := "t0", sessionId := "s1", from_ := "ldp:a", to_ := "ldp:b",
    body := { type := "TASK_SUBMIT", taskId := some "t1", skill := some "echo" },
    signature := signature }

/-- A wrong signature is refused. -/
theorem gated_iff_wrongSignature :
    Gated (fun _ => "") submissionMac signingDelegate "secret" (submission (some "00")) :=
  (gated_iff (fun _ => "") submissionMac signingDelegate "secret" (submission (some "00")) rfl
    (by decide)).mpr (.inl rfl)

/-- No signature is not. -/
theorem not_gated_unsigned :
    ¬ Gated (fun _ => "") submissionMac signingDelegate "secret" (submission none) := by
  intro h
  obtain ⟨tr, r, hrun⟩ := exists_run
    (signingDelegate.handleMessage (fun _ => "") submissionMac (submission none))
  exact passed_not_refused (signaturePasses_unsigned rfl) (by decide) hrun
    ((h tr r hrun).2 (by decide) rfl)

end LdpProtocol.DelegateGate
