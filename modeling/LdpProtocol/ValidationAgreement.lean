import LdpProtocol.ContractEnforcement
import LdpProtocol.PythonEnforcement

/-!
# The two contract validations

Both SDKs parse the deadline with a library of their own, compare it with their
clock and then the amounts with the budget. The amounts are compared alike. The
Python clock shows whole microseconds, so the readings that both clocks can show
are these.
-/
namespace LdpProtocol.ValidationAgreement
open InteractivePrograms InterferedRuns ConcurrentCalls
open InteractivePrograms.Program (call_bind pure_eq ask_bind pure_bind_eq)
open PythonTasks (Deadline Failure TaskCall)
open PythonVerdicts (ClockAt deadlineOf Naive)
open LdpAdapter (exceeds)

/-- Whenever the adapter's clock is read it shows `now`. -/
def AdapterClockAt (now : ℤ) (tr : AdapterRuns.Trace) : Prop := ∀ a, ⟨.utcNow, a⟩ ∈ tr → a = now

/-- A reading of the clock in nanoseconds, at a whole microsecond. -/
def reading (micros : ℤ) : ℤ := 1000 * micros

/-- The Python contract has the terms of the Rust one. -/
structure SameTerms (contract : PythonMessages.DelegationContract)
    (rust : MessageTypes.DelegationContract) : Prop where
  deadline : contract.deadline = rust.deadline
  budget : contract.policy.budget = rust.policy.budget.map fun budget =>
    ⟨budget.maxTokens.map fun n => (n.toNat : ℤ), budget.maxCostUsd⟩

structure SameUse (provenance : PythonMessages.Provenance) (rust : MessageTypes.Provenance) :
    Prop where
  tokensUsed : provenance.tokensUsed = rust.tokensUsed.map fun n => (n.toNat : ℤ)
  costUsd : provenance.costUsd = rust.costUsd

/-- `_validate_contract` raises nothing, whatever the clock shows. -/
def Returns (fromIsoFormat : String → Option Deadline)
    (contract : PythonMessages.DelegationContract) (provenance : PythonMessages.Provenance) :
    Prop :=
  ∀ (micros : ℤ) (tr : PythonSessionCache.TaskTrace) (r : Except Failure (List String)),
    Along (PythonTasks.validateContract fromIsoFormat contract provenance) tr (done r) →
    ClockAt (reading micros) tr → ∃ violations, r = .ok violations

/-- At the same clock both return the same list. -/
def Agrees (fromIsoFormat : String → Option Deadline) (parseRfc3339 : String → Option ℤ)
    (contract : PythonMessages.DelegationContract) (provenance : PythonMessages.Provenance)
    (contract' : MessageTypes.DelegationContract) (provenance' : MessageTypes.Provenance) : Prop :=
  ∀ (micros : ℤ) (tr : PythonSessionCache.TaskTrace) (r : Except Failure (List String))
    (tr' : AdapterRuns.Trace) (r' : Except String (List String)),
    Along (PythonTasks.validateContract fromIsoFormat contract provenance) tr (done r) →
    ClockAt (reading micros) tr →
    Along (LdpAdapter.validateContract parseRfc3339 contract' provenance') tr' (done r') →
    AdapterClockAt (reading micros) tr' →
    ∃ violations, r = .ok violations ∧ r' = .ok violations

/-- The libraries make the same of a deadline: nothing, or one microsecond. -/
def ReadAlike : Option Deadline → Option ℤ → Prop
  | none, none => True
  | some (.aware instant), some instant' => instant / 1000 = instant' / 1000
  | _, _ => False

section
variable {fromIsoFormat : String → Option Deadline} {parseRfc3339 : String → Option ℤ}
  {contract : PythonMessages.DelegationContract} {provenance : PythonMessages.Provenance}
  {contract' : MessageTypes.DelegationContract} {provenance' : MessageTypes.Provenance} {now : ℤ}

theorem adapter_done {tr : AdapterRuns.Trace} {r : Except String (List String)}
    (h : Along (LdpAdapter.validateContract parseRfc3339 contract' provenance') tr (done r))
    (hclock : AdapterClockAt now tr) :
    r = .ok (AdapterVerdicts.violationsAt parseRfc3339 contract' provenance' now) := by
  rw [← bind_pure (LdpAdapter.validateContract parseRfc3339 contract' provenance')] at h
  exact AdapterVerdicts.validateContract_done (g := id) h hclock

theorem adapter_path (parseRfc3339 : String → Option ℤ)
    (contract' : MessageTypes.DelegationContract) (provenance' : MessageTypes.Provenance)
    (now : ℤ) : ∃ tr, AdapterClockAt now tr ∧
    Along (LdpAdapter.validateContract parseRfc3339 contract' provenance') tr
      (done (.ok (AdapterVerdicts.violationsAt parseRfc3339 contract' provenance' now))) := by
  unfold LdpAdapter.validateContract LdpAdapter.deadlineViolations SessionManager.utcNow
  unfold AdapterVerdicts.violationsAt AdapterVerdicts.lateCodes
  cases contract'.deadline.bind parseRfc3339 with
  | none =>
      refine ⟨[], ?_, .here _⟩
      intro a ha
      cases ha
  | some deadline =>
      refine ⟨[⟨.utcNow, now⟩], ?_, .ask (.here _)⟩
      intro a ha
      cases List.mem_singleton.mp ha
      rfl

theorem exceeds_tokens (code : String) (max used : Option UInt64) :
    exceeds code (max.map fun n => (n.toNat : ℤ)) (used.map fun n => (n.toNat : ℤ)) =
      exceeds code max used := by
  cases max with
  | none => rfl
  | some m =>
      cases used with
      | none => rfl
      | some u => simp [exceeds, UInt64.lt_iff_toNat_lt]

/-- The amounts are compared alike. -/
theorem budgetViolations_eq (hterms : SameTerms contract contract')
    (huse : SameUse provenance provenance') :
    PythonTasks.budgetViolations contract provenance =
      LdpAdapter.budgetViolations contract' provenance' := by
  unfold PythonTasks.budgetViolations LdpAdapter.budgetViolations
  rw [hterms.budget]
  cases contract'.policy.budget with
  | none => rfl
  | some budget =>
      simp only [Option.map_some, huse.tokensUsed, huse.costUsd, exceeds_tokens]

theorem returns_iff :
    Returns fromIsoFormat contract provenance ↔ ¬ Naive fromIsoFormat contract := by
  constructor
  · intro h hnaive
    obtain ⟨tr, hclock, hpath⟩ :=
      PythonVerdicts.validateContract_path fromIsoFormat contract provenance (reading 0)
    obtain ⟨violations, hr⟩ := h 0 tr _ hpath hclock
    rw [PythonVerdicts.verdictAt_naive hnaive] at hr
    cases hr
  · intro h micros tr r hpath hclock
    rw [PythonVerdicts.validateContract_done hpath hclock, PythonVerdicts.verdictAt_ok h]
    exact ⟨_, rfl⟩

/-- What one reading of the clock tells about a deadline. -/
theorem late_iff {deadline micros : ℤ} : reading micros > deadline ↔ micros > deadline / 1000 := by
  unfold reading
  omega

theorem late_eq_nil {deadline micros : ℤ} :
    (if reading micros > deadline then ["deadline_exceeded"] else []) = [] ↔
      micros ≤ deadline / 1000 := by
  rw [← not_lt, ← gt_iff_lt, ← late_iff]
  split <;> simp [*]

/-- A deadline that is read alike is reported at the same readings of the clock, and
no other one is. -/
theorem lateCodes_eq_iff (hnaive : ¬ Naive fromIsoFormat contract) :
    (∀ micros, PythonVerdicts.lateCodes fromIsoFormat contract (reading micros) =
      AdapterVerdicts.lateCodes parseRfc3339 contract' (reading micros)) ↔
    ReadAlike (deadlineOf fromIsoFormat contract) (contract'.deadline.bind parseRfc3339) := by
  unfold Naive at hnaive
  unfold PythonVerdicts.lateCodes AdapterVerdicts.lateCodes
  cases hread : deadlineOf fromIsoFormat contract with
  | none =>
      cases contract'.deadline.bind parseRfc3339 with
      | none => simp [ReadAlike]
      | some instant' =>
          simp only [ReadAlike, iff_false]
          intro h
          have hlate := late_eq_nil.mp (h (instant' / 1000 + 1)).symm
          omega
  | some deadline =>
      cases deadline with
      | naive => exact (hnaive hread).elim
      | aware instant =>
          cases contract'.deadline.bind parseRfc3339 with
          | none =>
              simp only [ReadAlike, iff_false]
              intro h
              have hlate := late_eq_nil.mp (h (instant / 1000 + 1))
              omega
          | some instant' =>
              simp only [ReadAlike]
              constructor
              · intro h
                have hpython := h (instant' / 1000)
                have hrust := h (instant / 1000)
                rw [late_eq_nil.mpr le_rfl] at hpython hrust
                have hle := late_eq_nil.mp hpython
                have hge := late_eq_nil.mp hrust.symm
                omega
              · intro h micros
                simp only [late_iff, h]

theorem agrees_iff (hterms : SameTerms contract contract') (huse : SameUse provenance provenance') :
    Agrees fromIsoFormat parseRfc3339 contract provenance contract' provenance' ↔
      ReadAlike (deadlineOf fromIsoFormat contract) (contract'.deadline.bind parseRfc3339) := by
  have hbudget := budgetViolations_eq hterms huse
  constructor
  · intro h
    have hboth : ∀ micros, ∃ violations,
        PythonVerdicts.verdictAt fromIsoFormat contract provenance (reading micros) =
          .ok violations ∧
        AdapterVerdicts.violationsAt parseRfc3339 contract' provenance' (reading micros) =
          violations := by
      intro micros
      obtain ⟨tr, hclock, hpath⟩ :=
        PythonVerdicts.validateContract_path fromIsoFormat contract provenance (reading micros)
      obtain ⟨tr', hclock', hpath'⟩ :=
        adapter_path parseRfc3339 contract' provenance' (reading micros)
      obtain ⟨violations, hr, hr'⟩ := h micros tr _ tr' _ hpath hclock hpath' hclock'
      exact ⟨violations, hr, Except.ok.inj hr'⟩
    have hnaive : ¬ Naive fromIsoFormat contract := by
      intro hnaive
      obtain ⟨violations, hr, _⟩ := hboth 0
      rw [PythonVerdicts.verdictAt_naive hnaive] at hr
      cases hr
    refine (lateCodes_eq_iff hnaive).mp ?_
    intro micros
    obtain ⟨violations, hr, hr'⟩ := hboth micros
    rw [PythonVerdicts.verdictAt_ok hnaive, ← hr'] at hr
    have hlists := Except.ok.inj hr
    unfold PythonVerdicts.violationsAt AdapterVerdicts.violationsAt at hlists
    rw [hbudget] at hlists
    exact List.append_cancel_right hlists
  · intro h micros tr r tr' r' hpath hclock hpath' hclock'
    have hnaive : ¬ Naive fromIsoFormat contract := by
      intro hnaive
      rw [hnaive] at h
      exact h
    refine ⟨_, ?_, adapter_done hpath' hclock'⟩
    rw [PythonVerdicts.validateContract_done hpath hclock, PythonVerdicts.verdictAt_ok hnaive]
    unfold PythonVerdicts.violationsAt AdapterVerdicts.violationsAt
    rw [(lateCodes_eq_iff hnaive).mpr h micros, hbudget]

end
/-- The Python validation raises nothing exactly if it does not read the deadline
without an offset, and returns what the Rust one does exactly if both libraries read
the deadline alike. -/
theorem validations_agree_iff (fromIsoFormat : String → Option Deadline)
    (parseRfc3339 : String → Option ℤ) (contract : PythonMessages.DelegationContract)
    (provenance : PythonMessages.Provenance) :
    (Returns fromIsoFormat contract provenance ↔ ¬ Naive fromIsoFormat contract) ∧
    ∀ (contract' : MessageTypes.DelegationContract) (provenance' : MessageTypes.Provenance),
      SameTerms contract contract' → SameUse provenance provenance' →
      (Agrees fromIsoFormat parseRfc3339 contract provenance contract' provenance' ↔
        ReadAlike (deadlineOf fromIsoFormat contract) (contract'.deadline.bind parseRfc3339)) :=
  ⟨returns_iff, fun _ _ hterms huse => agrees_iff hterms huse⟩

/-- A contract with a deadline, and a result that says nothing of what it took. -/
def dueContract (deadline : String) : PythonMessages.DelegationContract where
  contractId := "c1"
  objective := "answer in time"
  deadline := some deadline
  createdAt := "t0"

def rustDueContract (deadline : String) : MessageTypes.DelegationContract where
  contractId := "c1"
  objective := "answer in time"
  successCriteria := []
  deadline := some deadline
  createdAt := "t0"

def plainProvenance : PythonMessages.Provenance where
  producedBy := "ldp:b"
  modelVersion := "1.0"
  timestamp := some "t2"

/-- The epoch with its offset is read by both libraries, without it only by Python's. -/
def isoEpoch (text : String) : Option Deadline :=
  if text = "1970-01-01T00:00:00+00:00" then some (.aware 0)
  else if text = "1970-01-01T00:00:00" then some .naive
  else none

def rfcEpoch (text : String) : Option ℤ :=
  if text = "1970-01-01T00:00:00+00:00" then some 0 else none

theorem validations_agree_iff_offset : Agrees isoEpoch rfcEpoch
    (dueContract "1970-01-01T00:00:00+00:00") plainProvenance
    (rustDueContract "1970-01-01T00:00:00+00:00")
    (MessageTypes.Provenance.new "ldp:b" "1.0" "t2") :=
  ((validations_agree_iff isoEpoch rfcEpoch (dueContract "1970-01-01T00:00:00+00:00")
    plainProvenance).2 (rustDueContract "1970-01-01T00:00:00+00:00")
    (MessageTypes.Provenance.new "ldp:b" "1.0" "t2") ⟨rfl, rfl⟩ ⟨rfl, rfl⟩).mpr rfl

/-- Without its offset the same deadline makes the validation raise. -/
theorem naive_deadline_raises : ¬ ∀ (fromIsoFormat : String → Option Deadline)
    (contract : PythonMessages.DelegationContract) (provenance : PythonMessages.Provenance),
    Returns fromIsoFormat contract provenance := by
  intro h
  have hreturns := h isoEpoch (dueContract "1970-01-01T00:00:00") plainProvenance
  exact returns_iff.mp hreturns rfl

end LdpProtocol.ValidationAgreement
