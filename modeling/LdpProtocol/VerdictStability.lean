import LdpProtocol.VerdictAgreement

/-!
# When a verdict lasts

Every poll judges by the clock of its own moment, also a result that was judged
before. A verdict therefore changes when the deadline passes between two polls,
unless neither the policy nor the output shows the violations.
-/
namespace LdpProtocol.VerdictStability
open InteractivePrograms InterferedRuns ConcurrentCalls Relation
open JsonValues PayloadModes MessageTypes EnvelopeSigning SessionManager LdpAdapter AdapterRuns
  AdapterVerdicts ContractEnforcement VerdictAgreement

/-- The deadline of the contract has passed. -/
def Late (parseRfc3339 : String → Option ℤ) (contract : DelegationContract) (now : ℤ) : Prop :=
  ∃ text deadline, contract.deadline = some text ∧ parseRfc3339 text = some deadline ∧
    deadline < now

section Verdicts
variable {parseRfc3339 : String → Option ℤ} {config : LdpAdapterConfig}
  {contract : DelegationContract} {provenance : Provenance} {now now' : ℤ}
  {output o o' : Value} {v v' : List String}

theorem lateCodes_cases (parseRfc3339 : String → Option ℤ) (contract : DelegationContract)
    (now : ℤ) : lateCodes parseRfc3339 contract now = [] ∨
    lateCodes parseRfc3339 contract now = ["deadline_exceeded"] := by
  unfold lateCodes
  split
  · split
    · exact .inr rfl
    · exact .inl rfl
  · exact .inl rfl

theorem lateCodes_eq_iff :
    lateCodes parseRfc3339 contract now = lateCodes parseRfc3339 contract now' ↔
      (Late parseRfc3339 contract now ↔ Late parseRfc3339 contract now') := by
  have hnil : lateCodes parseRfc3339 contract now = [] ↔ ¬ Late parseRfc3339 contract now :=
    lateCodes_eq_nil
  have hnil' : lateCodes parseRfc3339 contract now' = [] ↔ ¬ Late parseRfc3339 contract now' :=
    lateCodes_eq_nil
  constructor
  · intro h
    rw [h] at hnil
    exact not_iff_not.mp (hnil.symm.trans hnil')
  · intro h
    rcases lateCodes_cases parseRfc3339 contract now
      with hearly | hlate
    · rw [hearly, hnil'.mpr (h.not.mp (hnil.mp hearly))]
    · rcases lateCodes_cases parseRfc3339 contract now'
        with hearly' | hlate'
      · rw [hearly', hnil.mpr (h.not.mpr (hnil'.mp hearly'))]
      · rw [hlate, hlate']

/-- The codes there are, in the order in which they are listed. -/
def violationCodes : List String :=
  ["deadline_exceeded", "budget_tokens_exceeded", "budget_cost_exceeded"]

theorem exceeds_sublist {α : Type} [LT α] [DecidableLT α] {code : String} {max used : Option α} :
    (exceeds code max used).Sublist [code] := by
  unfold exceeds
  split
  · split
    · exact List.Sublist.refl _
    · exact List.nil_sublist _
  · exact List.nil_sublist _

theorem violationsAt_sublist :
    (violationsAt parseRfc3339 contract provenance now).Sublist violationCodes := by
  have hlate : (lateCodes parseRfc3339 contract now).Sublist ["deadline_exceeded"] := by
    rcases lateCodes_cases parseRfc3339 contract now
      with hearly | hlate
    · rw [hearly]
      exact List.nil_sublist _
    · rw [hlate]
  have hbudget : (budgetViolations contract provenance).Sublist
      (["budget_tokens_exceeded"] ++ ["budget_cost_exceeded"]) := by
    unfold budgetViolations
    split
    · exact exceeds_sublist.append exceeds_sublist
    · exact List.nil_sublist _
  exact hlate.append hbudget

/-- The text of the error tells the violations apart. -/
theorem violations_of_message (hv : v.Sublist violationCodes) (hv' : v'.Sublist violationCodes)
    (h : (contractViolated v o).message = (contractViolated v' o').message) : v = v' := by
  have hall : ∀ w ∈ violationCodes.sublists, ∀ w' ∈ violationCodes.sublists,
      "Contract violations: " ++ ", ".intercalate w =
        "Contract violations: " ++ ", ".intercalate w' → w = w' := by
    decide
  exact hall v (List.mem_sublists.mpr hv) v' (List.mem_sublists.mpr hv') h

/-- Under the fail-closed policy equal verdicts have equal violations. -/
theorem violations_of_judged (hpolicy : contract.policy.failurePolicy = .failClosed)
    (hv : v.Sublist violationCodes) (hv' : v'.Sublist violationCodes)
    (h : judged (some contract) v o = judged (some contract) v' o') : v = v' := by
  have hfails : ∀ w, failsClosed contract w = true ↔ w ≠ [] := by
    intro w
    unfold failsClosed
    simp [hpolicy]
  have hempty : ∀ w, ¬ failsClosed contract w = true → w = [] := by
    intro w hw
    by_contra hne
    exact hw ((hfails w).mpr hne)
  unfold judged at h
  dsimp only at h
  split at h
  · split at h
    · exact violations_of_message hv hv' (congrArg LdpError.message (TaskStatus.failed.inj h))
    · cases h
  · next hkeeps =>
      split at h
      · cases h
      · next hkeeps' => rw [hempty v hkeeps, hempty v' hkeeps']

/-- Two polls of one result judge alike when both are late or neither is, or
when neither the policy nor the output shows the violations. -/
theorem polled_eq_polled_iff : polledStatus parseRfc3339 config (some contract) output provenance
      now = polledStatus parseRfc3339 config (some contract) output provenance now' ↔
    (Late parseRfc3339 contract now ↔ Late parseRfc3339 contract now') ∨
      (config.attachProvenance = false ∧ contract.policy.failurePolicy = .failOpen) := by
  rw [← lateCodes_eq_iff]
  unfold polledStatus violationsOf
  dsimp only
  constructor
  · intro h
    by_cases hattach : config.attachProvenance = true
    · have hsame := embedProvenance_injective hattach (judged_output h)
      have hviolations : violationsAt parseRfc3339 contract (received provenance) now =
          violationsAt parseRfc3339 contract (received provenance) now' :=
        congrArg Provenance.contractViolations hsame
      exact .inl (List.append_cancel_right hviolations)
    · have hoff : config.attachProvenance = false := by simpa using hattach
      cases hpolicy : contract.policy.failurePolicy with
      | failOpen => exact .inr ⟨hoff, rfl⟩
      | failClosed =>
          have hviolations := violations_of_judged hpolicy violationsAt_sublist
            violationsAt_sublist h
          exact .inl (List.append_cancel_right hviolations)
  · intro h
    rcases h with hlate | ⟨hoff, hpolicy⟩
    · have hviolations : violationsAt parseRfc3339 contract (received provenance) now =
          violationsAt parseRfc3339 contract (received provenance) now' := by
        unfold violationsAt
        rw [hlate]
      rw [hviolations]
    · simp [judged, failsClosed, embedProvenance, hoff, hpolicy]

end Verdicts

/-- Two polls of a task that get the same result report the same, exactly when the
task has no contract, the deadline has passed at both or at neither, or the
contract fails open and no provenance is attached. -/
theorem verdict_stable_iff (parseRfc3339 : String → Option ℤ) (hmac : Hmac)
    (config : LdpAdapterConfig) (k k₁ : AdapterConfig) (h : Adapting parseRfc3339 hmac config k)
    (hfresh : FreshIds k) (h₁ : Adapting parseRfc3339 hmac config k₁)
    (hto : Moves ClientCall.Meaning (reported parseRfc3339 hmac config) k₁ k) (task : TaskRequest)
    (handle : TaskHandle) (hsubmitted : Submitted hmac config k₁ task handle)
    (j j' : ℕ) (hj : k₁.calls.length ≤ j) (hj' : k₁.calls.length ≤ j')
    (url url' : String) (first later : Except String Report)
    (hfirst : k.calls[j]? = some (.status url handle.taskId, done first))
    (hlater : k.calls[j']? = some (.status url' handle.taskId, done later))
    (response response' : LdpEnvelope) (id id' : String) (output : Value)
    (provenance : Provenance) (hbody : response.body = .taskResult id output provenance)
    (hbody' : response'.body = .taskResult id' output provenance) (now now' : ℤ)
    (hefirst : Evaluated response now (traceOf j k.log))
    (helater : Evaluated response' now' (traceOf j' k.log)) :
    first = later ↔ ∀ contract, task.contract = some contract →
      (Late parseRfc3339 contract now ↔ Late parseRfc3339 contract now') ∨
      (config.attachProvenance = false ∧ contract.policy.failurePolicy = .failOpen) := by
  have hverdict :=
    (status_reported h hfresh h₁ hto hsubmitted hj hfirst hefirst).result hbody
  have hverdict' :=
    (status_reported h hfresh h₁ hto hsubmitted hj' hlater helater).result hbody'
  rw [hverdict, hverdict', Except.ok.injEq, Report.status.injEq]
  cases htask : task.contract with
  | none => simp [polledStatus, violationsOf]
  | some contract =>
      rw [polled_eq_polled_iff]
      constructor
      · intro hstable contract' hcontract'
        cases hcontract'
        exact hstable
      · intro hstable
        exact hstable contract rfl

/-- Reads the one deadline used here, ten seconds after the epoch. -/
def parseTenSeconds (text : String) : Option ℤ :=
  if text = "1970-01-01T00:00:10Z" then some 10000000000 else none

/-- A fail-closed contract that ends ten seconds after the epoch. -/
def deadlineContract : DelegationContract where
  contractId := "c1"
  objective := "answer soon"
  successCriteria := []
  policy := { failurePolicy := .failClosed }
  deadline := some "1970-01-01T00:00:10Z"
  createdAt := "t0"

def deadlineTask : TaskRequest := ⟨"echo", .null, some deadlineContract⟩

theorem late_iff (now : ℤ) : Late parseTenSeconds deadlineContract now ↔ 10000000000 < now := by
  constructor
  · intro hlate
    obtain ⟨text, deadline, htext, hparse, hpassed⟩ := hlate
    cases htext
    cases hparse
    exact hpassed
  · intro hpassed
    exact ⟨_, _, rfl, rfl, hpassed⟩

/-- A task is submitted and polled at two times. -/
theorem polled_twice (now now' : ℤ) : ∃ k₁ k first later,
    Adapting parseTenSeconds submissionMac {} k₁ ∧ Adapting parseTenSeconds submissionMac {} k ∧
    Moves ClientCall.Meaning (reported parseTenSeconds submissionMac {}) k₁ k ∧ FreshIds k ∧
    Submitted submissionMac {} k₁ deadlineTask ⟨"t1", "u"⟩ ∧ k₁.calls.length = 1 ∧
    k.calls[1]? = some (.status "u" "t1", done first) ∧
    k.calls[2]? = some (.status "u" "t1", done later) ∧
    Evaluated shortResult now (traceOf 1 k.log) ∧ Evaluated shortResult now' (traceOf 2 k.log) := by
  obtain ⟨k₁, k, h₁, h, hto, hfresh, hcalls₁, hcalls, htrace₁, htrace₂⟩ :=
    Scene.plays_three parseTenSeconds submissionMac {} (submission deadlineTask shortResult)
      (polling "q1" now shortResult) (polling "q2" now' shortResult)
      (by simp [polling, submission]) (by simp [polling, submission]) rfl rfl
  refine ⟨k₁, k, _, _, h₁, h, hto, hfresh, ⟨0, "u", .inl (by rw [hcalls₁]; rfl)⟩,
    by rw [hcalls₁]; rfl, by rw [hcalls]; rfl, by rw [hcalls]; rfl, ?_, ?_⟩
  · rw [htrace₁]
    exact polling_evaluates
  · rw [htrace₂]
    exact polling_evaluates

/-- A result that met its deadline is a violation when it is polled again. -/
theorem verdict_flips : ¬ ∀ (parseRfc3339 : String → Option ℤ) (hmac : Hmac)
    (config : LdpAdapterConfig) (k k₁ : AdapterConfig) (task : TaskRequest) (handle : TaskHandle)
    (j l : ℕ) (url url' : String) (first later : Except String Report) (response : LdpEnvelope)
    (now now' : ℤ),
    Adapting parseRfc3339 hmac config k → FreshIds k → Adapting parseRfc3339 hmac config k₁ →
    Moves ClientCall.Meaning (reported parseRfc3339 hmac config) k₁ k →
    Submitted hmac config k₁ task handle → k₁.calls.length ≤ j → j ≤ l →
    k.calls[j]? = some (.status url handle.taskId, done first) →
    k.calls[l]? = some (.status url' handle.taskId, done later) →
    (∃ id output provenance, response.body = .taskResult id output provenance) →
    Evaluated response now (traceOf j k.log) → Evaluated response now' (traceOf l k.log) →
    first = later := by
  intro hall
  obtain ⟨k₁, k, first, later, h₁, h, hto, hfresh, hsubmitted, hone, hfirst, hlater, he, he'⟩ :=
    polled_twice 5000000000 20000000000
  have hsame := hall _ _ _ k k₁ deadlineTask ⟨"t1", "u"⟩ 1 2 "u" "u" first later shortResult _ _
    h hfresh h₁ hto hsubmitted (by omega) (by omega) hfirst hlater ⟨_, _, _, rfl⟩ he he'
  have hverdict := (status_reported h hfresh h₁ hto hsubmitted (by omega) hfirst he).result rfl
  have hverdict' := (status_reported h hfresh h₁ hto hsubmitted (by omega) hlater he').result rfl
  rw [hverdict, hverdict', Except.ok.injEq, Report.status.injEq] at hsame
  rcases polled_eq_polled_iff.mp hsame with hlate | ⟨hoff, _⟩
  · rw [late_iff, late_iff] at hlate
    omega
  · cases hoff

theorem verdict_stable_iff_inTime : ∃ k first later,
    Adapting parseTenSeconds submissionMac {} k ∧
    k.calls[1]? = some (.status "u" "t1", done first) ∧
    k.calls[2]? = some (.status "u" "t1", done later) ∧ first = later := by
  obtain ⟨k₁, k, first, later, h₁, h, hto, hfresh, hsubmitted, hone, hfirst, hlater, he, he'⟩ :=
    polled_twice 5000000000 6000000000
  have hstable := (verdict_stable_iff _ _ _ k k₁ h hfresh h₁ hto deadlineTask ⟨"t1", "u"⟩ hsubmitted
    1 2 (by omega) (by omega) "u" "u" first later hfirst hlater shortResult shortResult _ _ _ _ rfl
    rfl _ _ he he').mpr (by
      intro contract hcontract
      cases hcontract
      refine .inl ?_
      rw [late_iff, late_iff]
      omega)
  exact ⟨k, first, later, h, hfirst, hlater, hstable⟩

end LdpProtocol.VerdictStability
