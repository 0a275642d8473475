import LdpProtocol.AdapterVerdicts

/-!
# Contracts are enforced

A fail-closed contract that is broken when a result is evaluated makes the task
fail, and the delegate's output travels in the error. In every other case the
task is completed. Both ways of reading a result, `status` and `stream`, do so,
whatever other calls the adapter is busy with.
-/
namespace LdpProtocol.ContractEnforcement
open InteractivePrograms InterferedRuns ConcurrentCalls Relation
open JsonValues PayloadModes MessageTypes EnvelopeSigning SessionManager LdpAdapter AdapterRuns
  AdapterVerdicts

/-- The deadline has passed, or more tokens or money were used than allowed. -/
def Violates (parseRfc3339 : String → Option ℤ) (contract : DelegationContract)
    (provenance : Provenance) (now : ℤ) : Prop :=
  (∃ text deadline, contract.deadline = some text ∧ parseRfc3339 text = some deadline ∧
    deadline < now) ∨
  ∃ budget, contract.policy.budget = some budget ∧
    ((∃ max used, budget.maxTokens = some max ∧ provenance.tokensUsed = some used ∧ max < used) ∨
      ∃ max used, budget.maxCostUsd = some max ∧ provenance.costUsd = some used ∧ max < used)

/-- The output is there as it was, as a member of its own, or with the provenance
among its members. -/
def Carries (output embedded : Value) : Prop :=
  embedded = output ∨ embedded.get "result" = some output ∨
    ∃ members, output = .object members ∧
      ∀ key, key ≠ "ldp_provenance" → embedded.get key = output.get key

/-- What the policy of a contract asks for. -/
def Enforced (contract : DelegationContract) (violated : Prop) (output : Value)
    (status : TaskStatus) : Prop :=
  (violated ∧ contract.policy.failurePolicy = .failClosed →
    ∃ error embedded, status = .failed error ∧ error.code = "CONTRACT_VIOLATED" ∧
      error.partialOutput = some embedded ∧ Carries output embedded) ∧
  (¬ (violated ∧ contract.policy.failurePolicy = .failClosed) →
    ∃ embedded, status = .completed embedded ∧ Carries output embedded)

section
variable {parseRfc3339 : String → Option ℤ} {config : LdpAdapterConfig}
  {contract : DelegationContract} {provenance : Provenance} {now : ℤ} {output : Value}

theorem exceeds_eq_nil {α : Type} [LT α] [DecidableLT α] {code : String} {max used : Option α} :
    exceeds code max used = [] ↔ ¬ ∃ m u, max = some m ∧ used = some u ∧ m < u := by
  cases max with
  | none => simp [exceeds]
  | some m =>
      cases used with
      | none => simp [exceeds]
      | some u => simp [exceeds]

theorem budgetViolations_eq_nil : budgetViolations contract provenance = [] ↔
    ¬ ∃ budget, contract.policy.budget = some budget ∧
      ((∃ max used, budget.maxTokens = some max ∧ provenance.tokensUsed = some used ∧ max < used) ∨
        ∃ max used, budget.maxCostUsd = some max ∧ provenance.costUsd = some used ∧
          max < used) := by
  unfold budgetViolations
  cases contract.policy.budget with
  | none => simp
  | some budget =>
      dsimp only
      rw [List.append_eq_nil_iff, exceeds_eq_nil, exceeds_eq_nil, ← not_or, not_iff_not]
      constructor
      · intro h
        exact ⟨budget, rfl, h⟩
      · intro h
        obtain ⟨_, hbudget, h⟩ := h
        cases hbudget
        exact h

theorem lateCodes_eq_nil : lateCodes parseRfc3339 contract now = [] ↔
    ¬ ∃ text deadline, contract.deadline = some text ∧ parseRfc3339 text = some deadline ∧
      deadline < now := by
  unfold lateCodes
  cases contract.deadline with
  | none => simp
  | some text =>
      cases hparse : parseRfc3339 text with
      | none => simp [hparse]
      | some deadline => simp [hparse]

/-- The lineage entry and the flags leave what was used as it is. -/
theorem violationsAt_eq_nil : violationsAt parseRfc3339 contract (received provenance) now = [] ↔
    ¬ Violates parseRfc3339 contract provenance now := by
  unfold violationsAt Violates
  rw [List.append_eq_nil_iff, lateCodes_eq_nil, budgetViolations_eq_nil, not_or]
  rfl

theorem failsClosed_iff : failsClosed contract
      (violationsAt parseRfc3339 contract (received provenance) now) = true ↔
    Violates parseRfc3339 contract provenance now ∧
      contract.policy.failurePolicy = .failClosed := by
  unfold failsClosed
  rw [Bool.and_eq_true, decide_eq_true_eq, Bool.not_eq_true', ← Bool.not_eq_true,
    List.isEmpty_iff, violationsAt_eq_nil, not_not]

theorem lookup_insertMember_ne {key name : String} (h : key ≠ name) (v : Value)
    (members : List (String × Value)) :
    (insertMember members name v).lookup key = members.lookup key := by
  unfold insertMember
  induction members with
  | nil =>
      have hkey : (key == name) = false := beq_false_of_ne h
      simp [List.lookup, hkey]
  | cons member members ih =>
      obtain ⟨k, w⟩ := member
      by_cases hk : k = name
      · have hkey : (key == k) = false := by
          rw [hk]
          exact beq_false_of_ne h
        rw [List.filter_cons_of_neg (by simp [hk]), List.lookup_cons, hkey]
        exact ih
      · rw [List.filter_cons_of_pos (by simp [hk]), List.cons_append, List.lookup_cons,
          List.lookup_cons, ih]

theorem embedProvenance_carries (provenance : Provenance) :
    Carries output (embedProvenance config output provenance) := by
  unfold embedProvenance
  split
  · cases output with
    | object members =>
        refine .inr (.inr ⟨members, rfl, ?_⟩)
        intro key hkey
        exact lookup_insertMember_ne hkey _ members
    | _ => exact .inr (.inl rfl)
  · exact .inl rfl

/-- The verdict enforces the contract, whatever provenance is embedded. -/
theorem judged_enforced (embedded : Provenance) :
    Enforced contract (Violates parseRfc3339 contract provenance now) output
      (judged (some contract) (violationsOf parseRfc3339 (some contract) provenance now)
        (embedProvenance config output embedded)) := by
  unfold judged violationsOf
  dsimp only
  constructor
  · intro hbroken
    rw [if_pos (failsClosed_iff.mpr hbroken)]
    exact ⟨_, _, rfl, rfl, rfl, embedProvenance_carries embedded⟩
  · intro hkept
    rw [if_neg fun hfails => hkept (failsClosed_iff.mp hfails)]
    exact ⟨_, rfl, embedProvenance_carries embedded⟩

end

/-- A fail-closed contract for ten tokens. -/
def tokenContract : DelegationContract where
  contractId := "c1"
  objective := "answer briefly"
  successCriteria := []
  policy := { failurePolicy := .failClosed, budget := some ⟨some 10, none⟩ }
  createdAt := "t0"

def longProvenance : Provenance :=
  { Provenance.new "ldp:b" "1.0" "t3" with tokensUsed := some 11 }

def longResult : LdpEnvelope :=
  LdpEnvelope.new "m3" "t3" "" "ldp:b" "u" (.taskResult "t1" (.string "done") longProvenance) .text

def tokenTask : TaskRequest := ⟨"echo", .null, some tokenContract⟩

def submission (task : TaskRequest) (reply : LdpEnvelope) : Scene :=
  ⟨.invoke "u" task, "t1", 0, reply⟩

def polling (drawn : String) (now : ℤ) (reply : LdpEnvelope) : Scene :=
  ⟨.status "u" "t1", drawn, now, reply⟩

def streaming (task : TaskRequest) (reply : LdpEnvelope) : Scene :=
  ⟨.stream "u" task 1, "t2", 20, reply⟩

theorem polling_evaluates {parseRfc3339 : String → Option ℤ} {hmac : Hmac}
    {config : LdpAdapterConfig} {drawn : String} {now : ℤ} {reply : LdpEnvelope}
    {s : ClientState} : Evaluated reply now
      ((polling drawn now reply).played parseRfc3339 hmac config s).1 :=
  Scene.evaluates (polling drawn now reply) 2 rfl
    ⟨"t1", none, some "status_query", signIfConfigured_body ..⟩

/-- The maps after the submission. -/
def submitted (attach : Bool) : ClientState where
  sessions := AList.insert "u" { establishedSession { attachProvenance := attach } "u" "t1" "ldp:b"
    ⟨.text, []⟩ 0 with taskCount := 1 } ∅
  contracts := AList.insert "t1" tokenContract ∅

theorem submission_state (attach : Bool) (reply : LdpEnvelope) :
    ((submission tokenTask reply).played (fun _ => none) submissionMac
      { attachProvenance := attach } .empty).2.1 = submitted attach := rfl

theorem streaming_evaluates (attach : Bool) (reply : LdpEnvelope) : Evaluated reply 20
    ((streaming tokenTask reply).played (fun _ => none) submissionMac
      { attachProvenance := attach } (submitted attach)).1 :=
  Scene.evaluates (streaming tokenTask reply) 10 rfl
    ⟨"t2", none, some "status_query", rfl⟩

/-- A task is submitted, another one streamed, and then the first one polled. -/
theorem streamed_and_polled (attach : Bool) (reply : LdpEnvelope) : ∃ k₁ k polled streamed,
    Adapting (fun _ => none) submissionMac { attachProvenance := attach } k₁ ∧
    Adapting (fun _ => none) submissionMac { attachProvenance := attach } k ∧
    Moves ClientCall.Meaning
      (reported (fun _ => none) submissionMac { attachProvenance := attach }) k₁ k ∧
    FreshIds k ∧
    Submitted submissionMac { attachProvenance := attach } k₁ tokenTask ⟨"t1", "u"⟩ ∧
    k₁.calls.length = 1 ∧
    k.calls[2]? = some (.status "u" "t1", done polled) ∧
    k.calls[1]? = some (.stream "u" tokenTask 1, done streamed) ∧
    Evaluated reply 20 (traceOf 2 k.log) ∧ Evaluated reply 20 (traceOf 1 k.log) := by
  obtain ⟨k₁, k, h₁, h, hto, hfresh, hcalls₁, hcalls, htrace₁, htrace₂⟩ :=
    Scene.plays_three (fun _ => none) submissionMac { attachProvenance := attach }
      (submission tokenTask reply) (streaming tokenTask reply) (polling "q1" 20 reply)
      (by simp [streaming, submission]) (by simp [polling, submission, streaming])
      (submission_state attach reply) rfl
  refine ⟨k₁, k, _, _, h₁, h, hto, hfresh, ⟨0, "u", .inl (by rw [hcalls₁]; rfl)⟩,
    by rw [hcalls₁]; rfl, by rw [hcalls]; rfl, by rw [hcalls]; rfl, ?_, ?_⟩
  · rw [htrace₂]
    exact polling_evaluates
  · rw [htrace₁]
    exact streaming_evaluates attach reply

/-- An output that holds the provenance of an earlier hop. -/
def nestedResult : LdpEnvelope :=
  LdpEnvelope.new "m3" "t3" "" "ldp:b" "u"
    (.taskResult "t1" (.object [("ldp_provenance", .string "ldp:c")]) longProvenance) .text

end LdpProtocol.ContractEnforcement
