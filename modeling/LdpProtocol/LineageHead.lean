import LdpProtocol.VerdictOrigin

/-!
# The new head of a lineage

A received provenance gets an entry of its own in front of its lineage. The entry is
built before the verified flag and the status are reconciled, so a delegate of the
older protocol version, which sends the flag alone, is entered as unverified.
-/
namespace LdpProtocol.LineageHead
open InteractivePrograms InterferedRuns ConcurrentCalls
open JsonValues PayloadModes MessageTypes EnvelopeSigning SessionManager LdpAdapter AdapterRuns
  AdapterVerdicts ContractEnforcement VerdictOrigin

/-- An entry says of a hop what the provenance says of it. -/
structure Describes (entry : ProvenanceEntry) (p : Provenance) : Prop where
  delegateId : entry.delegateId = p.producedBy
  modelVersion : entry.modelVersion = p.modelVersion
  timestamp : entry.timestamp = p.timestamp
  verificationStatus : entry.verificationStatus = p.verificationStatus

/-- One new entry before the lineage that was given, which describes the provenance
it now stands in. -/
def Headed (given processed : Provenance) : Prop :=
  ∃ entry, processed.lineage = entry :: given.lineage ∧ Describes entry processed

/-- The flag is set and the status does not show it. -/
def Legacy (p : Provenance) : Prop := p.verified = true ∧ p.verificationStatus = .unverified

instance (p : Provenance) : Decidable (Legacy p) := inferInstanceAs (Decidable (_ ∧ _))

section
variable {given processed : Provenance} {contract : Option DelegationContract}
  {violations : List String}

theorem received_status (given : Provenance) : (received given).verificationStatus =
    if Legacy given then .selfVerified else given.verificationStatus := by
  unfold received Provenance.normalize Legacy
  by_cases hverified : given.verified = true
  · simp [hverified]
  · simp [hverified]

theorem received_lineage (given : Provenance) :
    (received given).lineage = buildLineageEntry given "task" :: given.lineage := rfl

/-- Reconciling the flag changes the status of no provenance but a legacy one. -/
theorem received_status_eq_iff :
    given.verificationStatus = (received given).verificationStatus ↔ ¬ Legacy given := by
  rw [received_status]
  by_cases hlegacy : Legacy given
  · rw [if_pos hlegacy, hlegacy.2]
    simp [hlegacy]
  · rw [if_neg hlegacy]
    simp [hlegacy]

theorem received_headed_iff : Headed given (received given) ↔ ¬ Legacy given := by
  rw [← received_status_eq_iff]
  constructor
  · intro h
    obtain ⟨entry, hlineage, hdescribes⟩ := h
    rw [received_lineage] at hlineage
    have hentry : buildLineageEntry given "task" = entry := (List.cons.inj hlineage).1
    rw [← hdescribes.verificationStatus, ← hentry]
    rfl
  · intro h
    exact ⟨buildLineageEntry given "task", received_lineage given, rfl, rfl, rfl, h⟩

/-- The contract fields are no part of it. -/
theorem headed_annotated :
    Headed given (annotated contract violations processed) ↔ Headed given processed := by
  cases contract with
  | none => exact Iff.rfl
  | some contract =>
      constructor
      · intro h
        obtain ⟨entry, hlineage, hdescribes⟩ := h
        exact ⟨entry, hlineage, hdescribes.delegateId, hdescribes.modelVersion,
          hdescribes.timestamp, hdescribes.verificationStatus⟩
      · intro h
        obtain ⟨entry, hlineage, hdescribes⟩ := h
        exact ⟨entry, hlineage, hdescribes.delegateId, hdescribes.modelVersion,
          hdescribes.timestamp, hdescribes.verificationStatus⟩

end

/-- The provenance of a result is headed by an entry that describes it, in what a poll
and a stream work with and in what they show, unless the delegate sent the flag
alone. -/
theorem headed_iff (parseRfc3339 : String → Option ℤ) (hmac : Hmac) (config : LdpAdapterConfig)
    (given : Provenance) : (Headed given (received given) ↔ ¬ Legacy given) ∧
    ∀ (k : AdapterConfig) (response : LdpEnvelope) (id : String) (output : Value) (now : ℤ)
      (j : ℕ) (url : String) (r : Except String Report), config.attachProvenance = true →
      Adapting parseRfc3339 hmac config k → response.body = .taskResult id output given →
      Evaluated response now (traceOf j k.log) →
      (∀ taskId, k.calls[j]? = some (.status url taskId, done r) →
        (Shown r (Headed given) ↔ ¬ Legacy given)) ∧
      ∀ task ticks, k.calls[j]? = some (.stream url task ticks, done r) →
        (ShownLast r (Headed given) ↔ ¬ Legacy given) := by
  refine ⟨received_headed_iff, ?_⟩
  intro k response id output now j url r hattach h hbody he
  constructor
  · intro taskId hcall
    obtain ⟨found, _, hr⟩ := status_answered h hcall he hbody
    rw [shown_iff hattach hr, headed_annotated]
    exact received_headed_iff
  · intro task ticks hcall
    obtain ⟨events, hevents, hends⟩ := (stream_reported h hcall he).result hbody
    rw [shownLast_iff hattach hevents hends]
    exact received_headed_iff

/-- A result as the older protocol version sends it: verified, without a status. -/
def legacyProvenance : Provenance := { Provenance.new "ldp:b" "1.0" "t3" with verified := true }

def legacyResult : LdpEnvelope :=
  LdpEnvelope.new "m3" "t3" "" "ldp:b" "u" (.taskResult "t1" (.string "done") legacyProvenance)
    .text

/-- Its head entry is unverified, the provenance around it is not. -/
theorem legacy_entered_unverified : ¬ ∀ (parseRfc3339 : String → Option ℤ) (hmac : Hmac)
    (config : LdpAdapterConfig) (k : AdapterConfig) (response : LdpEnvelope) (id : String)
    (output : Value) (given : Provenance) (now : ℤ) (j : ℕ) (url taskId : String)
    (r : Except String Report), config.attachProvenance = true →
    Adapting parseRfc3339 hmac config k → response.body = .taskResult id output given →
    Evaluated response now (traceOf j k.log) →
    k.calls[j]? = some (.status url taskId, done r) → Shown r (Headed given) := by
  intro hall
  obtain ⟨k₁, k, polled, streamed, h₁, h, hto, hfresh, hsubmitted, hone, hpolled, hstreamed,
    hep, hes⟩ := streamed_and_polled true legacyResult
  have hshown := hall (fun _ => none) submissionMac {} k legacyResult "t1" (.string "done")
    legacyProvenance 20 2 "u" "t1" polled rfl h rfl hep hpolled
  obtain ⟨found, _, hr⟩ := status_answered h hpolled hep rfl
  rw [shown_iff rfl hr, headed_annotated, received_headed_iff] at hshown
  exact hshown ⟨rfl, rfl⟩

/-- A result with a status is entered as it is shown. -/
theorem headed_iff_long : ∃ k polled, Adapting (fun _ => none) submissionMac {} k ∧
    k.calls[2]? = some (.status "u" "t1", done polled) ∧ Shown polled (Headed longProvenance) := by
  obtain ⟨k₁, k, polled, streamed, h₁, h, hto, hfresh, hsubmitted, hone, hpolled, hstreamed,
    hep, hes⟩ := streamed_and_polled true longResult
  have hshown := (((headed_iff (fun _ => none) submissionMac {} longProvenance).2 k longResult "t1"
    (.string "done") 20 2 "u" polled rfl h rfl hep).1 "t1" hpolled).mpr (by decide)
  exact ⟨k, polled, h, hpolled, hshown⟩

end LdpProtocol.LineageHead
