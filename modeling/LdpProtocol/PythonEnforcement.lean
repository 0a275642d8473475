import LdpProtocol.ContractEnforcement
import LdpProtocol.PythonVerdicts

/-!
# Fail-closed contracts in the Python client

A result that comes without a provenance is returned unjudged, as is an answer that is
neither a result nor a failure, and a deadline without an offset raises an error of
another kind. Every other result is judged as the contract asks for.
-/
namespace LdpProtocol.PythonEnforcement
open InteractivePrograms InterferedRuns ConcurrentCalls
open JsonValues PayloadModes EnvelopeSigning PythonMessages PythonSigning PythonIdentity
open PythonClient PythonTasks PythonVerdicts
open MessageTypes (FailurePolicy)
open LdpAdapter (exceeds)
open ContractEnforcement (exceeds_eq_nil)

/-- The deadline has passed. A text without an offset is read in a zone that the
reader chooses. -/
def Passed (fromIsoFormat : String → Option Deadline) (zone : String → ℤ)
    (contract : DelegationContract) (now : ℤ) : Prop :=
  ∃ text, contract.deadline = some text ∧ text ≠ "" ∧
    ((∃ instant, fromIsoFormat text = some (.aware instant) ∧ instant < now) ∨
      (fromIsoFormat text = some .naive ∧ zone text < now))

/-- More tokens or money are reported than the budget allows. -/
def Exceeded (contract : DelegationContract) (provenance : Option Provenance) : Prop :=
  ∃ budget given, contract.policy.budget = some budget ∧ provenance = some given ∧
    ((∃ max used, budget.maxTokens = some max ∧ given.tokensUsed = some used ∧ max < used) ∨
      ∃ max used, budget.maxCostUsd = some max ∧ given.costUsd = some used ∧ max < used)

def Violated (fromIsoFormat : String → Option Deadline) (zone : String → ℤ)
    (contract : DelegationContract) (provenance : Option Provenance) (now : ℤ) : Prop :=
  Passed fromIsoFormat zone contract now ∨ Exceeded contract provenance

/-- What a fail-closed contract asks for on a result, and what a call that returns
carries. -/
def Enforced (contract : DelegationContract) (violated : Prop) (body : LdpMessageBody)
    (r : Except Failure TaskReport) : Prop :=
  (body.type = "TASK_RESULT" → contract.policy.failurePolicy = .failClosed → violated →
    ∃ message taskId provenance verdict,
      r = .error (.contractViolation message (.result taskId body.output provenance verdict))) ∧
  ∀ report, r = .ok report → ∃ taskId provenance verdict,
    report = .result taskId body.output provenance (some verdict) ∧
    verdict.contractId = contract.contractId ∧ (verdict.contractSatisfied = true ↔ ¬ violated)

section
variable {fromIsoFormat : String → Option Deadline} {zone : String → ℤ}
  {contract : DelegationContract} {given : Provenance} {body : LdpMessageBody} {now : ℤ}

theorem lateCodes_eq_nil (h : ¬ Naive fromIsoFormat contract) :
    lateCodes fromIsoFormat contract now = [] ↔ ¬ Passed fromIsoFormat zone contract now := by
  unfold Naive deadlineOf at h
  unfold lateCodes deadlineOf Passed
  cases hdeadline : contract.deadline with
  | none => simp
  | some text =>
      by_cases hempty : text = ""
      · simp [hempty]
      · cases hparse : fromIsoFormat text with
        | none => simp [hempty, hparse]
        | some deadline =>
            cases deadline with
            | naive => simp [hdeadline, hempty, hparse] at h
            | aware instant => simp [hempty, hparse]

theorem budgetViolations_eq_nil :
    budgetViolations contract given = [] ↔ ¬ Exceeded contract (some given) := by
  unfold budgetViolations Exceeded
  cases contract.policy.budget with
  | none => simp
  | some budget =>
      dsimp only
      rw [List.append_eq_nil_iff, exceeds_eq_nil, exceeds_eq_nil, ← not_or, not_iff_not]
      constructor
      · intro h
        exact ⟨budget, given, rfl, rfl, h⟩
      · intro h
        obtain ⟨_, _, hbudget, hgiven, h⟩ := h
        cases hbudget
        cases hgiven
        exact h

theorem violationsAt_eq_nil (h : ¬ Naive fromIsoFormat contract) :
    violationsAt fromIsoFormat contract given now = [] ↔
      ¬ Violated fromIsoFormat zone contract (some given) now := by
  unfold violationsAt Violated
  rw [List.append_eq_nil_iff, lateCodes_eq_nil h, budgetViolations_eq_nil, not_or]

/-- The verdict enforces the contract. -/
theorem judged_enforced (h : ¬ Naive fromIsoFormat contract) :
    Enforced contract (Violated fromIsoFormat zone contract (some given) now) body
      (judged contract body (violationsAt fromIsoFormat contract given now)) := by
  have hnil : violationsAt fromIsoFormat contract given now = [] ↔
      ¬ Violated fromIsoFormat zone contract (some given) now := violationsAt_eq_nil h
  unfold judged
  constructor
  · intro _ hpolicy hviolated
    have hsome : violationsAt fromIsoFormat contract given now ≠ [] :=
      fun hempty => hnil.mp hempty hviolated
    rw [if_pos ⟨hsome, hpolicy⟩]
    exact ⟨_, _, _, _, rfl⟩
  · intro report hreport
    split at hreport
    · cases hreport
    · cases hreport
      refine ⟨_, _, _, rfl, rfl, ?_⟩
      rw [← hnil]
      exact List.isEmpty_iff

theorem concludedAt_enforced_iff (htype : body.type = "TASK_RESULT") : Enforced contract
      (Violated fromIsoFormat zone contract body.provenance now) body
      (concludedAt fromIsoFormat contract body now) ↔
    body.provenance ≠ none ∧
      ¬ (Naive fromIsoFormat contract ∧ contract.policy.failurePolicy = .failClosed ∧
        Violated fromIsoFormat zone contract body.provenance now) := by
  unfold concludedAt
  cases body.provenance with
  | none =>
      constructor
      · intro h
        obtain ⟨_, _, _, hreport, _⟩ := h.2 _ rfl
        cases hreport
      · intro h
        exact (h.1 rfl).elim
  | some given =>
      by_cases hnaive : Naive fromIsoFormat contract
      · dsimp only
        rw [verdictAt_naive hnaive]
        constructor
        · intro h
          refine ⟨by simp, ?_⟩
          intro hbad
          obtain ⟨_, _, _, _, hr⟩ := h.1 htype hbad.2.1 hbad.2.2
          cases hr
        · intro h
          constructor
          · intro _ hpolicy hviolated
            exact (h.2 ⟨hnaive, hpolicy, hviolated⟩).elim
          · intro report hreport
            cases hreport
      · dsimp only
        rw [verdictAt_ok hnaive]
        constructor
        · intro _
          exact ⟨by simp, fun hbad => hnaive hbad.1⟩
        · intro _
          exact judged_enforced hnaive

end

/-- A fail-closed contract for ten tokens, and one that was due before the epoch. -/
def tokenContract : DelegationContract where
  contractId := "c1"
  objective := "answer briefly"
  policy := { failurePolicy := .failClosed, budget := some { maxTokens := some 10 } }
  createdAt := "t0"

def lateContract : DelegationContract where
  contractId := "c1"
  objective := "answer at once"
  policy := { failurePolicy := .failClosed }
  deadline := some "1969-12-31T23:59:59+00:00"
  createdAt := "t0"

def heldSession : LdpSession where
  sessionId := "s1"
  remoteUrl := "u"
  remoteDelegateId := "ldp:b"
  trustDomain := { name := "default" }
  createdAt := 0
  lastUsed := 0

def echoTask (contract : DelegationContract) : TaskArguments where
  skill := "echo"
  inputData := .null
  session := some heldSession
  contract := some contract

def resultEnvelope (provenance : Option Provenance) : LdpEnvelope :=
  LdpEnvelope.create "m2" "t2" "s1" "ldp:b" "ldp:client:default"
    { type := "TASK_RESULT", taskId := some "t1", output := .string "done", provenance } .text

def longProvenance : Provenance where
  producedBy := "ldp:b"
  modelVersion := "1.0"
  timestamp := some "t2"
  tokensUsed := some 11

/-- A second before the epoch. -/
def beforeEpoch (_ : String) : Option Deadline := some (.aware (-1000000000))

/-- The submission of that task to a delegate that answers with this result. -/
def submitted (contract : DelegationContract) (provenance : Option Provenance) :
    PythonSessionCache.TaskTrace × ClientState × Except Failure TaskReport :=
  Program.exec (answering (resultEnvelope provenance).modelDump .null ⟨"m", "t", "c", "t", "t"⟩)
    (submitTask beforeEpoch (fun _ _ => .empty) {} "u" (echoTask contract)) ⟨∅, []⟩

theorem submitted_run (contract : DelegationContract) (provenance : Option Provenance) :
    Run TaskCall.Meaning Quiet
      (submitTask beforeEpoch (fun _ _ => .empty) {} "u" (echoTask contract)) ⟨∅, []⟩
      (submitted contract provenance).1 (submitted contract provenance).2.1
      (submitted contract provenance).2.2 :=
  exec_run _ (answering_meaning _ _ _) _ _

/-- The message that is posted for it. -/
def submission (contract : DelegationContract) : LdpEnvelope :=
  let id := "9f1c1f0e-6f7e-4a0b-9a55-0d6a3b1c2d4e"
  LdpEnvelope.create id "1970-01-01T00:00:00+00:00" "s1" "ldp:client:default" "ldp:b"
    (taskSubmit id "echo" .null (some contract)) .semanticFrame

/-- Three questions come before the post, and the clock is not read in the end. -/
theorem submitted_late_answered :
    Answered (resultEnvelope none) 0 (submitted lateContract none).1 := by
  refine ⟨(submitted lateContract none).1.take 3, "u", (submission lateContract).modelDump,
    (resultEnvelope none).modelDump, ⟨"m", "t", "c", "t", "t"⟩, heldSession, [], rfl, rfl, ?_⟩
  intro a ha
  cases ha

theorem submitted_tokens_answered : Answered (resultEnvelope (some longProvenance)) 0
    (submitted tokenContract (some longProvenance)).1 := by
  refine ⟨(submitted tokenContract (some longProvenance)).1.take 3, "u",
    (submission tokenContract).modelDump, (resultEnvelope (some longProvenance)).modelDump,
    ⟨"m", "t", "c", "t", "t"⟩, heldSession, [], rfl, rfl, ?_⟩
  intro a ha
  cases ha

end LdpProtocol.PythonEnforcement
