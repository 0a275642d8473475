import LdpProtocol.ContractEnforcement

/-!
# When a poll and a stream agree

A stream embeds the provenance as it was received; a poll fills in the contract
fields first. What a result comes to is otherwise the same for both.
-/
namespace LdpProtocol.VerdictAgreement
open InteractivePrograms InterferedRuns ConcurrentCalls Relation
open JsonValues PayloadModes MessageTypes EnvelopeSigning SessionManager LdpAdapter AdapterRuns
  AdapterVerdicts ContractEnforcement

/-- A poll and a stream report the same end. -/
def Agree (polled streamed : Except String Report) : Prop :=
  ∃ status events, polled = .ok (.status status) ∧ streamed = .ok (.events events) ∧
    EndsWith events status

section Verdicts
variable {parseRfc3339 : String → Option ℤ} {config : LdpAdapterConfig}
  {contract : DelegationContract} {provenance p p' : Provenance} {now now' : ℤ}
  {output o o' : Value} {v v' : List String}

theorem EndsWith.unique {events : List TaskEvent} {s s' : TaskStatus} (h : EndsWith events s)
    (h' : EndsWith events s') : s = s' := by
  obtain ⟨before, event, hevents, _, hended⟩ := h
  obtain ⟨before', event', hevents', _, hended'⟩ := h'
  rw [hevents] at hevents'
  obtain ⟨_, hlast⟩ := List.append_inj' hevents' rfl
  cases hlast
  rw [hended] at hended'
  exact Option.some.inj hended'

theorem agree_iff {polled streamed : Except String Report} {events : List TaskEvent}
    {s s' : TaskStatus} (hpolled : polled = .ok (.status s))
    (hstreamed : streamed = .ok (.events events)) (hends : EndsWith events s') :
    Agree polled streamed ↔ s = s' := by
  constructor
  · intro h
    obtain ⟨status, events', hp, hs, hends'⟩ := h
    rw [hpolled] at hp
    rw [hstreamed] at hs
    cases hp
    cases hs
    exact EndsWith.unique hends' hends
  · intro h
    subst h
    exact ⟨s, events, hpolled, hstreamed, hends⟩

theorem Provenance.toValue_injective (h : p.toValue = p'.toValue) : p = p' := by
  have hback := congrArg Provenance.fromValue h
  rw [Provenance.fromValue_toValue, Provenance.fromValue_toValue] at hback
  exact Option.some.inj hback

theorem embedProvenance_injective (hattach : config.attachProvenance = true)
    (h : embedProvenance config output p = embedProvenance config output p') : p = p' := by
  unfold embedProvenance at h
  rw [if_pos hattach, if_pos hattach] at h
  apply Provenance.toValue_injective
  cases output with
  | object members =>
      unfold insertMember at h
      have hmembers := List.append_cancel_left (Value.object.inj h)
      exact (Prod.mk.inj (List.cons.inj hmembers).1).2
  | _ =>
      have hrest := (List.cons.inj (Value.object.inj h)).2
      exact (Prod.mk.inj (List.cons.inj hrest).1).2

/-- Equal verdicts have equal outputs. -/
theorem judged_output {c : Option DelegationContract} (h : judged c v o = judged c v' o') :
    o = o' := by
  cases c with
  | none => exact TaskStatus.completed.inj h
  | some contract =>
      unfold judged at h
      dsimp only at h
      split at h
      · split at h
        · have herror := TaskStatus.failed.inj h
          have hpartial := congrArg LdpError.partialOutput herror
          exact Option.some.inj hpartial
        · cases h
      · split at h
        · cases h
        · exact TaskStatus.completed.inj h

theorem annotated_eq_iff (contract : DelegationContract) (p : Provenance) (v : List String) :
    annotated (some contract) v p = p ↔
    p.contractId = some contract.contractId ∧ p.contractSatisfied = some v.isEmpty ∧
      p.contractViolations = v := by
  constructor
  · intro h
    rw [← h]
    exact ⟨rfl, rfl, rfl⟩
  · intro h
    obtain ⟨hid, hsatisfied, hviolations⟩ := h
    unfold annotated
    dsimp only
    rw [← hid, ← hsatisfied, ← hviolations]

/-- A poll and a stream judge alike when nothing is embedded, or when the contract
fields are what the poll would make them. -/
theorem polled_eq_streamed_iff : polledStatus parseRfc3339 config (some contract) output provenance
      now = streamedStatus parseRfc3339 config (some contract) output provenance now ↔
    config.attachProvenance = false ∨
      (provenance.contractId = some contract.contractId ∧
        provenance.contractSatisfied =
          some (violationsAt parseRfc3339 contract (received provenance) now).isEmpty ∧
        provenance.contractViolations =
          violationsAt parseRfc3339 contract (received provenance) now) := by
  have hfields := annotated_eq_iff contract (received provenance)
    (violationsAt parseRfc3339 contract (received provenance) now)
  unfold polledStatus streamedStatus violationsOf
  dsimp only
  constructor
  · intro h
    by_cases hattach : config.attachProvenance = true
    · exact .inr (hfields.mp (embedProvenance_injective hattach (judged_output h)))
    · exact .inl (by simpa using hattach)
  · intro h
    rcases h with hattach | hsame
    · simp [embedProvenance, hattach]
    · rw [hfields.mpr hsame]

end Verdicts

/-- A poll and a stream of tasks with one contract that get the same final
response at the same time agree, exactly when the response is a failure, there is
no contract, no provenance is attached, or the provenance as received already has
the contract fields that the poll fills in. -/
theorem polling_agrees_iff (parseRfc3339 : String → Option ℤ) (hmac : Hmac)
    (config : LdpAdapterConfig) (k k₁ : AdapterConfig) (h : Adapting parseRfc3339 hmac config k)
    (hfresh : FreshIds k) (h₁ : Adapting parseRfc3339 hmac config k₁)
    (hto : Moves ClientCall.Meaning (reported parseRfc3339 hmac config) k₁ k) (task : TaskRequest)
    (handle : TaskHandle) (hsubmitted : Submitted hmac config k₁ task handle)
    (j l : ℕ) (hj : k₁.calls.length ≤ j) (url url' : String)
    (task' : TaskRequest) (ticks : ℕ) (polled streamed : Except String Report)
    (hpolled : k.calls[j]? = some (.status url handle.taskId, done polled))
    (hstreamed : k.calls[l]? = some (.stream url' task' ticks, done streamed))
    (hcontract : task'.contract = task.contract) (response : LdpEnvelope) (now : ℤ)
    (hepolled : Evaluated response now (traceOf j k.log))
    (hestreamed : Evaluated response now (traceOf l k.log))
    (hends : (∃ id output provenance, response.body = .taskResult id output provenance) ∨
      ∃ id error, response.body = .taskFailed id error) :
    Agree polled streamed ↔
      (∃ id error, response.body = .taskFailed id error) ∨ task.contract = none ∨
      config.attachProvenance = false ∨
      ∃ contract id output provenance, task.contract = some contract ∧
        response.body = .taskResult id output provenance ∧
        provenance.contractId = some contract.contractId ∧
        provenance.contractSatisfied =
          some (violationsAt parseRfc3339 contract (received provenance) now).isEmpty ∧
        provenance.contractViolations =
          violationsAt parseRfc3339 contract (received provenance) now := by
  have hpoll := status_reported h hfresh h₁ hto hsubmitted hj hpolled hepolled
  have hstream := stream_reported h hstreamed hestreamed
  rcases hends with ⟨id, output, provenance, hbody⟩ | ⟨id, error, hbody⟩
  · obtain ⟨events, hevents, hend⟩ := hstream.result hbody
    rw [agree_iff (hpoll.result hbody) hevents hend, hcontract, hbody]
    cases htask : task.contract with
    | none => simp [polledStatus, streamedStatus, annotated]
    | some contract =>
        rw [polled_eq_streamed_iff]
        constructor
        · intro hsame
          rcases hsame with hoff | hfields
          · exact .inr (.inr (.inl hoff))
          · exact .inr (.inr (.inr ⟨contract, id, output, provenance, rfl, rfl, hfields⟩))
        · intro hcondition
          rcases hcondition with ⟨_, _, hfailed⟩ | hnone | hoff |
            ⟨contract', id', output', provenance', hcontract', hresult, hfields⟩
          · cases hfailed
          · cases hnone
          · exact .inl hoff
          · cases hcontract'
            cases hresult
            exact .inr hfields
  · obtain ⟨events, hevents, hend⟩ := hstream.failed hbody
    rw [agree_iff (hpoll.failed hbody) hevents hend]
    exact ⟨fun _ => .inl ⟨id, error, hbody⟩, fun _ => rfl⟩

def shortResult : LdpEnvelope :=
  LdpEnvelope.new "m3" "t3" "" "ldp:b" "u" (.taskResult "t1" (.string "done")
    (Provenance.new "ldp:b" "1.0" "t3")) .text

/-- A poll and a stream of one result differ. -/
theorem polling_disagrees : ¬ ∀ (parseRfc3339 : String → Option ℤ) (hmac : Hmac)
    (config : LdpAdapterConfig) (k k₁ : AdapterConfig) (task : TaskRequest) (handle : TaskHandle)
    (j l : ℕ) (url url' : String) (task' : TaskRequest) (ticks : ℕ)
    (polled streamed : Except String Report) (response : LdpEnvelope) (now : ℤ),
    Adapting parseRfc3339 hmac config k → FreshIds k → Adapting parseRfc3339 hmac config k₁ →
    Moves ClientCall.Meaning (reported parseRfc3339 hmac config) k₁ k →
    Submitted hmac config k₁ task handle → k₁.calls.length ≤ j →
    k.calls[j]? = some (.status url handle.taskId, done polled) →
    k.calls[l]? = some (.stream url' task' ticks, done streamed) →
    task'.contract = task.contract → Evaluated response now (traceOf j k.log) →
    Evaluated response now (traceOf l k.log) →
    (∃ id output provenance, response.body = .taskResult id output provenance) →
    Agree polled streamed := by
  intro hall
  obtain ⟨k₁, k, polled, streamed, h₁, h, hto, hfresh, hsubmitted, hone, hpolled, hstreamed,
    hep, hes⟩ := streamed_and_polled true shortResult
  have hagree := hall _ _ _ k k₁ tokenTask ⟨"t1", "u"⟩ 2 1 "u" "u" tokenTask 1 polled streamed
    shortResult 20 h hfresh h₁ hto hsubmitted (by omega) hpolled hstreamed rfl hep hes
    ⟨_, _, _, rfl⟩
  have hpoll := status_reported h hfresh h₁ hto hsubmitted (by omega) hpolled hep
  have hstream := stream_reported h hstreamed hes
  obtain ⟨events, hevents, hend⟩ := hstream.result rfl
  have hsame := (agree_iff (hpoll.result rfl) hevents hend).mp hagree
  rcases polled_eq_streamed_iff.mp hsame with hoff | ⟨hid, _⟩
  · cases hoff
  · cases hid

theorem polling_agrees_iff_unattached : ∃ k polled streamed,
    Adapting (fun _ => none) submissionMac { attachProvenance := false } k ∧
    k.calls[2]? = some (.status "u" "t1", done polled) ∧
    k.calls[1]? = some (.stream "u" tokenTask 1, done streamed) ∧ Agree polled streamed := by
  obtain ⟨k₁, k, polled, streamed, h₁, h, hto, hfresh, hsubmitted, hone, hpolled, hstreamed,
    hep, hes⟩ := streamed_and_polled false shortResult
  have hagree := (polling_agrees_iff _ _ _ k k₁ h hfresh h₁ hto tokenTask ⟨"t1", "u"⟩ hsubmitted
    2 1 (by omega) "u" "u" tokenTask 1 polled streamed hpolled hstreamed rfl shortResult 20 hep hes
    (.inl ⟨_, _, _, rfl⟩)).mpr (.inr (.inr (.inl rfl)))
  exact ⟨k, polled, streamed, h, hpolled, hstreamed, hagree⟩

end LdpProtocol.VerdictAgreement
