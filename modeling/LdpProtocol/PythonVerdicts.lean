import LdpProtocol.PythonSessionCache

/-!
# What the Python client makes of a result

The deadline of a contract is compared with one reading of the clock, and a text
without an offset cannot be compared. A submission is over when its response has
come back and been counted on the session; what follows is the verdict.
-/
namespace LdpProtocol.PythonVerdicts
open InteractivePrograms InterferedRuns ConcurrentCalls TranslatedPrograms
open InteractivePrograms.Program (call_bind pure_eq ask_bind pure_bind_eq throw_bind uses_pure
  uses_throw)
open JsonValues PayloadModes EnvelopeSigning PythonMessages PythonSigning PythonIdentity
open PythonClient PythonTasks
open PythonSessionCache (TaskTrace along_lifted_pure sendMessage_done)
open PythonQuestions (establishSession_asks getOrEstablish_asks concludeTask_asks)
open MessageTypes (FailurePolicy)

section Validation
variable (fromIsoFormat : String → Option Deadline)

/-- The deadline that a contract comes with; an empty text is none. -/
def deadlineOf (contract : DelegationContract) : Option Deadline :=
  contract.deadline.bind fun text => if text = "" then none else fromIsoFormat text

/-- The deadline is parsed, but has no offset. -/
abbrev Naive (contract : DelegationContract) : Prop :=
  deadlineOf fromIsoFormat contract = some .naive

def lateCodes (contract : DelegationContract) (now : ℤ) : List String :=
  match deadlineOf fromIsoFormat contract with
  | some (.aware deadline) => if now > deadline then ["deadline_exceeded"] else []
  | _ => []

/-- The violations of a contract at a reading of the clock. -/
def violationsAt (contract : DelegationContract) (provenance : Provenance) (now : ℤ) :
    List String :=
  lateCodes fromIsoFormat contract now ++ budgetViolations contract provenance

/-- What the comparison with a deadline without an offset raises. -/
def incomparable : Raised := .typeError "can't compare offset-naive and offset-aware datetimes"

def verdictAt (contract : DelegationContract) (provenance : Provenance) (now : ℤ) :
    Except Failure (List String) :=
  match deadlineOf fromIsoFormat contract with
  | some .naive => .error (.raised incomparable)
  | _ => .ok (violationsAt fromIsoFormat contract provenance now)

end Validation

/-- Whenever the clock is read it shows `now`. -/
def ClockAt (now : ℤ) (tr : TaskTrace) : Prop :=
  ∀ a, ⟨.client .utcNow, a⟩ ∈ tr → a = now

theorem ClockAt.mono {now : ℤ} {tr tr' : TaskTrace} (h : ClockAt now tr) (hsub : tr' ⊆ tr) :
    ClockAt now tr' := fun a ha => h a (hsub ha)

section Paths
variable {fromIsoFormat : String → Option Deadline} {contract : DelegationContract}
  {provenance : Provenance} {now : ℤ} {tr : TaskTrace}

theorem verdictAt_naive (h : Naive fromIsoFormat contract) :
    verdictAt fromIsoFormat contract provenance now = .error (.raised incomparable) := by
  unfold verdictAt
  rw [h]

theorem verdictAt_ok (h : ¬ Naive fromIsoFormat contract) :
    verdictAt fromIsoFormat contract provenance now =
      .ok (violationsAt fromIsoFormat contract provenance now) := by
  unfold verdictAt
  split
  · next hnaive => exact (h hnaive).elim
  · rfl

/-- A path through the validation, for what the clock shows on it. -/
theorem validateContract_done {r : Except Failure (List String)}
    (h : Along (validateContract fromIsoFormat contract provenance) tr (done r))
    (hclock : ClockAt now tr) : r = verdictAt fromIsoFormat contract provenance now := by
  unfold validateContract deadlineViolations PythonTasks.now lifted PythonClient.utcNow at h
  unfold verdictAt violationsAt lateCodes deadlineOf
  cases hdeadline : contract.deadline.bind fun text =>
      if text = "" then none else fromIsoFormat text with
  | none =>
      rw [hdeadline] at h
      exact (along_pure_done.mp h).2
  | some deadline =>
      rw [hdeadline] at h
      cases deadline with
      | naive =>
          obtain ⟨_, _, _, hthrow⟩ := along_ask_done.mp h
          exact (along_throw_done.mp hthrow).2
      | aware deadline =>
          obtain ⟨reading, rest, htr, hpure⟩ := along_ask_done.mp h
          have hnow : reading = now := hclock reading (by rw [htr]; exact List.mem_cons_self)
          rw [(along_pure_done.mp hpure).2, hnow]

/-- Whatever the clock shows, there is such a path. -/
theorem validateContract_path (fromIsoFormat : String → Option Deadline)
    (contract : DelegationContract) (provenance : Provenance) (now : ℤ) :
    ∃ tr, ClockAt now tr ∧ Along (validateContract fromIsoFormat contract provenance) tr
      (done (verdictAt fromIsoFormat contract provenance now)) := by
  unfold validateContract deadlineViolations PythonTasks.now lifted PythonClient.utcNow
  unfold verdictAt violationsAt lateCodes deadlineOf
  cases contract.deadline.bind fun text => if text = "" then none else fromIsoFormat text with
  | none =>
      refine ⟨[], ?_, .here _⟩
      intro a ha
      cases ha
  | some deadline =>
      refine ⟨[⟨.client .utcNow, now⟩], ?_, ?_⟩
      · intro a ha
        cases List.mem_singleton.mp ha
        rfl
      · cases deadline with
        | naive => exact .ask (.here _)
        | aware deadline => exact .ask (.here _)

/-- What the caller gets of a result. -/
def resultOf (body : LdpMessageBody) (verdict : Option Verdict) : TaskReport :=
  .result body.taskId body.output (body.provenance.map Provenance.modelDump) verdict

def judged (contract : DelegationContract) (body : LdpMessageBody) (violations : List String) :
    Except Failure TaskReport :=
  let result := resultOf body (some ⟨contract.contractId, violations.isEmpty, violations⟩)
  if violations ≠ [] ∧ contract.policy.failurePolicy = .failClosed then
    .error (.contractViolation ("Contract violated [" ++ ", ".intercalate violations ++ "]") result)
  else .ok result

/-- What becomes of a result under a contract. -/
def concludedAt (fromIsoFormat : String → Option Deadline) (contract : DelegationContract)
    (body : LdpMessageBody) (now : ℤ) : Except Failure TaskReport :=
  match body.provenance with
  | none => .ok (resultOf body none)
  | some given => verdictAt fromIsoFormat contract given now >>= judged contract body

theorem concludeResult_done {body : LdpMessageBody} {r : Except Failure TaskReport}
    (h : Along (concludeResult fromIsoFormat (some contract) body) tr (done r))
    (hclock : ClockAt now tr) : r = concludedAt fromIsoFormat contract body now := by
  unfold concludeResult at h
  unfold concludedAt
  cases hgiven : body.provenance with
  | none =>
      simp only [hgiven, pure_eq, along_pure_done] at h
      unfold resultOf
      rw [h.2, hgiven]
  | some given =>
      simp only [hgiven] at h
      rcases h.of_bind_done with ⟨e, hthrow, hr⟩ | ⟨violations, tr₁, tr₂, h₁, h₂, htr⟩
      · have hverdict : .error e = verdictAt fromIsoFormat contract given now :=
          validateContract_done hthrow hclock
        dsimp only
        rw [hr, ← hverdict]
        rfl
      · have hclock₁ : ClockAt now tr₁ := by
          apply hclock.mono
          rw [htr]
          exact List.subset_append_left _ _
        have hverdict : .ok violations = verdictAt fromIsoFormat contract given now :=
          validateContract_done h₁ hclock₁
        dsimp only
        rw [← hverdict]
        show r = judged contract body violations
        unfold judged resultOf
        rw [hgiven]
        split at h₂
        · next hbroken =>
            rw [(along_throw_done.mp h₂).2]
            exact (if_pos hbroken).symm
        · next hkept =>
            rw [(along_pure_done.mp h₂).2]
            exact (if_neg hkept).symm

end Paths

/-- `response` came back for the task and was counted on its session; from then on
the clock shows `now`. -/
def Answered (response : LdpEnvelope) (now : ℤ) (tr : TaskTrace) : Prop :=
  ∃ before url message document made session after,
    tr = before ++ [⟨.client (.postMessage url message), .ok document⟩,
      ⟨.client .defaults, made⟩] ++ ⟨.touch session, ()⟩ :: after ∧
    LdpEnvelope.modelValidate made document = some response ∧ ClockAt now after

def IsTouch : TaskCall → Prop
  | .touch _ => True
  | _ => False

abbrev NeverTouches {α : Type} (p : TaskProgram α) : Prop :=
  p.Uses (fun _ _ => True) fun q => ¬ IsTouch q

section Submission
variable {fromIsoFormat : String → Option Deadline} {hmac : Hmac} {client : LdpClient}
  {url : String} {task : TaskArguments} {session : LdpSession} {response : LdpEnvelope} {now : ℤ}
  {tr : TaskTrace} {r : Except Failure TaskReport}

theorem lifted_neverTouches {α : Type} (p : ClientProgram α) : NeverTouches (lifted p) :=
  uses_renamed (fun _ => id) p

theorem getOrEstablish_neverTouches (url : String) :
    NeverTouches (getOrEstablishSession hmac client url) :=
  getOrEstablish_asks id id
    (establishSession_asks ⟨id, id, id, id, id⟩ (fun _ => id) id fun _ => id)

theorem Answered.touched (h : Answered response now tr) :
    ∃ session, ⟨.touch session, ()⟩ ∈ tr := by
  obtain ⟨_, _, _, _, _, session, _, htr, _⟩ := h
  exact ⟨session, by rw [htr]; simp⟩

/-- What is left of a submission when its response has come back; its session was
looked up or opened before. -/
theorem submitIn_answered {tr₀ : TaskTrace} (h₀ : ∀ ev ∈ tr₀, ¬ IsTouch ev.1)
    (h : Along (submitIn fromIsoFormat hmac client url task session) tr (done r))
    (ha : Answered response now (tr₀ ++ tr)) : ∃ taskId rest,
      Along (concludeTask fromIsoFormat task.contract taskId response.body) rest (done r) ∧
      ClockAt now rest := by
  obtain ⟨held, htouched⟩ := ha.touched
  have hmem : ⟨.touch held, ()⟩ ∈ tr :=
    (List.mem_append.mp htouched).resolve_left fun hin => h₀ _ hin trivial
  unfold submitIn at h
  obtain ⟨taskId, tr₁, rest₁, h₁, h, htr₁, hmem⟩ := h.past (lifted_neverTouches _) hmem (· trivial)
  obtain ⟨submit, tr₂, rest₂, h₂, h, htr₂, hmem⟩ := h.past (lifted_neverTouches _) hmem (· trivial)
  obtain ⟨back, tr₃, rest₃, h₃, h, htr₃, _⟩ := h.past (lifted_neverTouches _) hmem (· trivial)
  unfold PythonTasks.touch at h
  simp only [call_bind, along_ask_done] at h
  obtain ⟨_, rest, hrest₃, hconclude⟩ := h
  obtain ⟨sent, hsent, hmapped⟩ := along_lifted_pure h₃
  obtain ⟨document, made, hposted, hread⟩ := sendMessage_done hsent
  obtain ⟨before, url', message, document', made', held', after, hanswered, hread', hclock⟩ := ha
  have hsplit : (tr₀ ++ tr₁ ++ tr₂ ++ tr₃) ++ ⟨.touch session, ()⟩ :: rest =
      (before ++ [⟨.client (.postMessage url' message), .ok document'⟩,
        ⟨.client .defaults, made'⟩]) ++ ⟨.touch held', ()⟩ :: after := by
    rw [← hanswered, htr₁, htr₂, htr₃, hrest₃]
    simp
  have hbefore : ∀ ev ∈ tr₀ ++ tr₁ ++ tr₂ ++ tr₃, ¬ IsTouch ev.1 := by
    intro ev hev
    simp only [List.mem_append] at hev
    rcases hev with ((hev | hev) | hev) | hev
    · exact h₀ ev hev
    · exact h₁.uses (lifted_neverTouches _) ev hev
    · exact h₂.uses (lifted_neverTouches _) ev hev
    · exact h₃.uses (lifted_neverTouches _) ev hev
  have htouch : IsTouch (.touch held') := trivial
  obtain ⟨hfront, _, hafter⟩ := split_unique (P := fun ev => IsTouch ev.1) hsplit hbefore
    (hconclude.uses (concludeTask_asks (P := (¬ IsTouch ·)) id _ _ _)) htouch
  rw [hmapped, hposted] at hfront
  have hlast := (List.append_inj' hfront rfl).2
  cases hlast
  rw [hread] at hread'
  cases hread'
  exact ⟨taskId, rest, hconclude, hafter ▸ hclock⟩

theorem submitTask_answered
    (h : Along (submitTask fromIsoFormat hmac client url task) tr (done r))
    (ha : Answered response now tr) : ∃ taskId rest,
      Along (concludeTask fromIsoFormat task.contract taskId response.body) rest (done r) ∧
      ClockAt now rest := by
  unfold submitTask at h
  split at h
  · have hnone : ∀ ev ∈ ([] : TaskTrace), ¬ IsTouch ev.1 := by simp
    exact submitIn_answered hnone h ha
  · obtain ⟨held, hmem⟩ := ha.touched
    obtain ⟨session, tr₁, rest, h₁, h, htr, _⟩ :=
      h.past (getOrEstablish_neverTouches url) hmem (· trivial)
    rw [htr] at ha
    exact submitIn_answered (h₁.uses (getOrEstablish_neverTouches url)) h ha

end Submission
end LdpProtocol.PythonVerdicts
