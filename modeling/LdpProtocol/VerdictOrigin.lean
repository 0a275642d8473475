import LdpProtocol.VerdictAgreement

/-!
# Whose verdict is embedded

The contract fields of a provenance are filled in by a poll of a task under a
contract. Everywhere else they are those of the delegate, so that a verdict may be
read off a result which nobody made here.
-/
namespace LdpProtocol.VerdictOrigin
open InteractivePrograms InterferedRuns ConcurrentCalls Relation
open JsonValues PayloadModes MessageTypes EnvelopeSigning SessionManager LdpAdapter AdapterRuns
  AdapterVerdicts ContractEnforcement VerdictAgreement

/-- The provenance that is embedded in what a status reports. -/
def Embeds (status : TaskStatus) (provenance : Provenance) : Prop :=
  ∃ output, output.get "ldp_provenance" = some provenance.toValue ∧
    (status = .completed output ∨ ∃ error, status = .failed error ∧
      error.partialOutput = some output)

/-- A verdict in a provenance is that of the validation, and there is none without a
contract. -/
def ClientMade (contract : Option DelegationContract) (violations : List String)
    (provenance : Provenance) : Prop :=
  (∀ satisfied, provenance.contractSatisfied = some satisfied →
    contract ≠ none ∧ satisfied = violations.isEmpty ∧
      provenance.contractViolations = violations) ∧
  (contract = none → provenance.contractSatisfied = none ∧ provenance.contractViolations = [])

/-- The contract that a provenance names is the one the task was submitted with. -/
def ClientNamed (contract : Option DelegationContract) (provenance : Provenance) : Prop :=
  ∀ id, provenance.contractId = some id → ∃ c, contract = some c ∧ id = c.contractId

section
variable {config : LdpAdapterConfig} {contract : Option DelegationContract} {output : Value}
  {p q : Provenance} {violations : List String}

theorem lookup_insertMember (members : List (String × Value)) (name : String) (v : Value) :
    (insertMember members name v).lookup name = some v := by
  unfold insertMember
  induction members with
  | nil => simp
  | cons member members ih =>
      by_cases hname : member.1 = name
      · rw [List.filter_cons_of_neg (by simp [hname])]
        exact ih
      · have hkey : (name == member.1) = false := beq_false_of_ne (Ne.symm hname)
        rw [List.filter_cons_of_pos (by simp [hname]), List.cons_append, List.lookup_cons, hkey]
        exact ih

theorem get_embedProvenance (hattach : config.attachProvenance = true) (output : Value)
    (p : Provenance) :
    (embedProvenance config output p).get "ldp_provenance" = some p.toValue := by
  unfold embedProvenance
  rw [if_pos hattach]
  cases output with
  | object members => exact lookup_insertMember members _ _
  | _ => rfl

/-- A verdict embeds the provenance that was put into its output, and no other. -/
theorem embeds_judged (hattach : config.attachProvenance = true) :
    Embeds (judged contract violations (embedProvenance config output p)) q ↔ q = p := by
  have hget := get_embedProvenance hattach output p
  constructor
  · intro h
    obtain ⟨shown, hshown, hstatus⟩ := h
    have hsame : shown = embedProvenance config output p := by
      cases contract with
      | none =>
          rcases hstatus with hcompleted | ⟨_, hfailed, _⟩
          · exact (TaskStatus.completed.inj hcompleted).symm
          · cases hfailed
      | some contract =>
          unfold judged at hstatus
          dsimp only at hstatus
          split at hstatus
          · rcases hstatus with hcompleted | ⟨_, hfailed, hpartial⟩
            · cases hcompleted
            · rw [← TaskStatus.failed.inj hfailed] at hpartial
              exact (Option.some.inj hpartial).symm
          · rcases hstatus with hcompleted | ⟨_, hfailed, _⟩
            · exact (TaskStatus.completed.inj hcompleted).symm
            · cases hfailed
    rw [hsame, hget] at hshown
    exact (Provenance.toValue_injective (Option.some.inj hshown)).symm
  · intro h
    subst h
    refine ⟨_, hget, ?_⟩
    cases contract with
    | none => exact .inl rfl
    | some contract =>
        unfold judged
        dsimp only
        split
        · exact .inr ⟨_, rfl, rfl⟩
        · exact .inl rfl

/-- A poll fills in the fields of the contract it knows. -/
theorem annotated_clientMade_iff :
    ClientMade contract violations (annotated contract violations p) ↔
      contract ≠ none ∨ (p.contractSatisfied = none ∧ p.contractViolations = []) := by
  cases contract with
  | none =>
      constructor
      · intro h
        exact .inr (h.2 rfl)
      · intro h
        obtain ⟨hnone, hempty⟩ := h.resolve_left (· rfl)
        refine ⟨?_, fun _ => ⟨hnone, hempty⟩⟩
        intro satisfied hsome
        rw [show (annotated none violations p).contractSatisfied = none from hnone] at hsome
        cases hsome
  | some contract =>
      constructor
      · intro _
        exact .inl (by simp)
      · intro _
        refine ⟨?_, fun hnone => by cases hnone⟩
        intro satisfied hsome
        exact ⟨by simp, (Option.some.inj hsome).symm, rfl⟩

theorem annotated_clientNamed_iff : ClientNamed contract (annotated contract violations p) ↔
    contract ≠ none ∨ p.contractId = none := by
  cases contract with
  | none =>
      constructor
      · intro h
        refine .inr (Option.eq_none_iff_forall_ne_some.mpr ?_)
        intro id hid
        obtain ⟨_, hc, _⟩ := h id hid
        cases hc
      · intro h id hid
        have hnone := h.resolve_left (· rfl)
        rw [show (annotated none violations p).contractId = none from hnone] at hid
        cases hid
  | some contract =>
      constructor
      · intro _
        exact .inl (by simp)
      · intro _ id hid
        exact ⟨contract, rfl, (Option.some.inj hid).symm⟩

/-- A provenance that is passed on has to be right as it comes. -/
theorem clientMade_iff : ClientMade contract violations p ↔
    (p.contractSatisfied = none ∧ (contract = none → p.contractViolations = [])) ∨
      (contract ≠ none ∧ p.contractSatisfied = some violations.isEmpty ∧
        p.contractViolations = violations) := by
  constructor
  · intro h
    cases hsatisfied : p.contractSatisfied with
    | none => exact .inl ⟨rfl, fun hnone => (h.2 hnone).2⟩
    | some satisfied =>
        obtain ⟨hsome, hmade, hlist⟩ := h.1 satisfied hsatisfied
        exact .inr ⟨hsome, by rw [hmade], hlist⟩
  · intro h
    rcases h with ⟨hnone, hempty⟩ | ⟨hcontract, hsome, hlist⟩
    · refine ⟨?_, fun hc => ⟨hnone, hempty hc⟩⟩
      intro satisfied hsatisfied
      rw [hnone] at hsatisfied
      cases hsatisfied
    · refine ⟨?_, fun hc => (hcontract hc).elim⟩
      intro satisfied hsatisfied
      rw [hsome] at hsatisfied
      exact ⟨hcontract, (Option.some.inj hsatisfied).symm, hlist⟩

theorem clientNamed_iff : ClientNamed contract p ↔
    p.contractId = none ∨ ∃ c, contract = some c ∧ p.contractId = some c.contractId := by
  constructor
  · intro h
    cases hid : p.contractId with
    | none => exact .inl rfl
    | some id =>
        obtain ⟨c, hc, hsame⟩ := h id hid
        exact .inr ⟨c, hc, by rw [hsame]⟩
  · intro h id hid
    rcases h with hnone | ⟨c, hc, hsame⟩
    · rw [hnone] at hid
      cases hid
    · rw [hsame] at hid
      exact ⟨c, hc, (Option.some.inj hid).symm⟩

end

/-- A status is reported with a provenance that has the property. -/
def Shown (r : Except String Report) (P : Provenance → Prop) : Prop :=
  ∃ status p, r = .ok (.status status) ∧ Embeds status p ∧ P p

/-- Events are reported that end in a status with such a provenance. -/
def ShownLast (r : Except String Report) (P : Provenance → Prop) : Prop :=
  ∃ events status p, r = .ok (.events events) ∧ EndsWith events status ∧ Embeds status p ∧ P p

section
variable {config : LdpAdapterConfig} {contract : Option DelegationContract} {output : Value}
  {p : Provenance} {violations : List String} {r : Except String Report} {P : Provenance → Prop}

theorem shown_iff (hattach : config.attachProvenance = true)
    (hr : r = .ok (.status (judged contract violations (embedProvenance config output p)))) :
    Shown r P ↔ P p := by
  constructor
  · intro h
    obtain ⟨status, q, hstatus, hembeds, hq⟩ := h
    rw [hr] at hstatus
    cases hstatus
    rw [(embeds_judged hattach).mp hembeds] at hq
    exact hq
  · intro h
    exact ⟨_, p, hr, (embeds_judged hattach).mpr rfl, h⟩

theorem shownLast_iff (hattach : config.attachProvenance = true) {events : List TaskEvent}
    (hr : r = .ok (.events events))
    (hends : EndsWith events (judged contract violations (embedProvenance config output p))) :
    ShownLast r P ↔ P p := by
  constructor
  · intro h
    obtain ⟨events', status, q, hevents, hends', hembeds, hq⟩ := h
    rw [hr] at hevents
    cases hevents
    rw [EndsWith.unique hends' hends] at hembeds
    rw [(embeds_judged hattach).mp hembeds] at hq
    exact hq
  · intro h
    exact ⟨events, _, p, hr, hends, (embeds_judged hattach).mpr rfl, h⟩

end

/-- A poll shows a verdict that was made here exactly if the task has a contract or
the delegate sends none; a stream, exactly if what the delegate sends is right. -/
theorem client_made_iff (parseRfc3339 : String → Option ℤ) (hmac : Hmac)
    (config : LdpAdapterConfig) (hattach : config.attachProvenance = true) (k : AdapterConfig)
    (h : Adapting parseRfc3339 hmac config k) (hfresh : FreshIds k) (response : LdpEnvelope)
    (id : String) (output : Value) (given : Provenance)
    (hbody : response.body = .taskResult id output given) (now : ℤ) (task : TaskRequest) (j : ℕ)
    (url : String) (r : Except String Report) (he : Evaluated response now (traceOf j k.log)) :
    (∀ (k₁ : AdapterConfig) (handle : TaskHandle), Adapting parseRfc3339 hmac config k₁ →
      Moves ClientCall.Meaning (reported parseRfc3339 hmac config) k₁ k →
      Submitted hmac config k₁ task handle → k₁.calls.length ≤ j →
      k.calls[j]? = some (.status url handle.taskId, done r) →
      (Shown r (ClientMade task.contract (violationsOf parseRfc3339 task.contract given now)) ↔
        task.contract ≠ none ∨ (given.contractSatisfied = none ∧ given.contractViolations = [])) ∧
      (Shown r (ClientNamed task.contract) ↔ task.contract ≠ none ∨ given.contractId = none)) ∧
    ∀ ticks, k.calls[j]? = some (.stream url task ticks, done r) →
      (ShownLast r (ClientMade task.contract
          (violationsOf parseRfc3339 task.contract given now)) ↔
        (given.contractSatisfied = none ∧
          (task.contract = none → given.contractViolations = [])) ∨
        (task.contract ≠ none ∧
          given.contractSatisfied =
            some (violationsOf parseRfc3339 task.contract given now).isEmpty ∧
          given.contractViolations = violationsOf parseRfc3339 task.contract given now)) ∧
      (ShownLast r (ClientNamed task.contract) ↔ given.contractId = none ∨
        ∃ contract, task.contract = some contract ∧
          given.contractId = some contract.contractId) := by
  constructor
  · intro k₁ handle h₁ hto hsubmitted hj hcall
    have hpoll := (status_reported h hfresh h₁ hto hsubmitted hj hcall he).result hbody
    rw [shown_iff hattach hpoll, shown_iff hattach hpoll]
    exact ⟨annotated_clientMade_iff, annotated_clientNamed_iff⟩
  · intro ticks hcall
    obtain ⟨events, hevents, hends⟩ := (stream_reported h hcall he).result hbody
    rw [shownLast_iff hattach hevents hends, shownLast_iff hattach hevents hends]
    exact ⟨clientMade_iff, clientNamed_iff⟩

/-- A result that took eleven tokens and calls the contract satisfied. -/
def forgedResult : LdpEnvelope :=
  LdpEnvelope.new "m3" "t3" "" "ldp:b" "u" (.taskResult "t1" (.string "done")
    { longProvenance with contractSatisfied := some true }) .text

/-- Polled, the result shows the verdict that was made here. -/
theorem client_made_iff_forged : ∃ k polled,
    Adapting (fun _ => none) submissionMac {} k ∧
    k.calls[2]? = some (.status "u" "t1", done polled) ∧
    Shown polled (ClientMade (some tokenContract) ["budget_tokens_exceeded"]) := by
  obtain ⟨k₁, k, polled, streamed, h₁, h, hto, hfresh, hsubmitted, hone, hpolled, hstreamed,
    hep, hes⟩ := streamed_and_polled true forgedResult
  have hmade := ((client_made_iff (fun _ => none) submissionMac {} rfl k h hfresh forgedResult "t1"
    (.string "done") { longProvenance with contractSatisfied := some true } rfl 20 tokenTask 2 "u"
    polled hep).1 k₁ ⟨"t1", "u"⟩ h₁ hto hsubmitted (by omega) hpolled).1.mpr
    (.inl (by simp [tokenTask]))
  exact ⟨k, polled, h, hpolled, hmade⟩

/-- Streamed, it shows the delegate's. -/
theorem forged_verdict_streamed : ¬ ∀ (parseRfc3339 : String → Option ℤ) (hmac : Hmac)
    (config : LdpAdapterConfig) (k : AdapterConfig) (response : LdpEnvelope) (id : String)
    (output : Value) (given : Provenance) (now : ℤ) (task : TaskRequest) (j : ℕ) (url : String)
    (ticks : ℕ) (r : Except String Report),
    config.attachProvenance = true → Adapting parseRfc3339 hmac config k →
    response.body = .taskResult id output given → Evaluated response now (traceOf j k.log) →
    k.calls[j]? = some (.stream url task ticks, done r) →
    ShownLast r (ClientMade task.contract (violationsOf parseRfc3339 task.contract given now)) := by
  intro hall
  obtain ⟨k₁, k, polled, streamed, h₁, h, hto, hfresh, hsubmitted, hone, hpolled, hstreamed,
    hep, hes⟩ := streamed_and_polled true forgedResult
  have hshown := hall (fun _ => none) submissionMac {} k forgedResult "t1" (.string "done")
    { longProvenance with contractSatisfied := some true } 20 tokenTask 1 "u" 1 streamed rfl h rfl
    hes hstreamed
  obtain ⟨events, hevents, hends⟩ := (stream_reported h hstreamed hes).result rfl
  have hmade := (shownLast_iff rfl hevents hends).mp hshown
  obtain ⟨_, hsatisfied, _⟩ := hmade.1 true rfl
  cases hsatisfied

end LdpProtocol.VerdictOrigin
