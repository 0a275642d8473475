import LdpProtocol.JsonEquality
import LdpProtocol.VerdictOrigin

/-!
# What embedding a provenance keeps of an output

An object gets the provenance as one of its members, in place of a member of that
name; any other output becomes the member "result" of a new object. An output is
therefore kept up to these two: what stood under the name of the provenance is
lost, and an output that is itself such a new object looks like the one inside it.
-/
namespace LdpProtocol.EmbeddedOutputs
open InteractivePrograms InterferedRuns ConcurrentCalls
open JsonValues MessageTypes EnvelopeSigning SessionManager LdpAdapter AdapterRuns AdapterVerdicts
  ContractEnforcement VerdictOrigin
open JsonValues.Value (Same lookup_cons_if)

/-- The members under which an output is kept. -/
def keptMembers : Value → List (String × Value)
  | .object members => members
  | other => [("result", other)]

/-- Two outputs that have the same members, the provenance of earlier hops apart. -/
def KeptAlike (x y : Value) : Prop :=
  ∀ key, key ≠ "ldp_provenance" →
    Option.Rel Same ((keptMembers x).lookup key) ((keptMembers y).lookup key)

section
variable {config : LdpAdapterConfig} {x y : Value} {p : Provenance} {key : String}

theorem lookup_insertMember_ne (members : List (String × Value)) {name : String} (v : Value)
    (hkey : key ≠ name) : (insertMember members name v).lookup key = members.lookup key := by
  unfold insertMember
  induction members with
  | nil => simp [lookup_cons_if, hkey]
  | cons member members ih =>
      by_cases hname : member.1 = name
      · rw [List.filter_cons_of_neg (by simp [hname]), ih, lookup_cons_if,
          if_neg (by rwa [hname])]
      · rw [List.filter_cons_of_pos (by simp [hname]), List.cons_append, lookup_cons_if,
          lookup_cons_if, ih]

/-- An embedded output is an object that keeps the members under every other name. -/
theorem embedProvenance_object (hattach : config.attachProvenance = true) (x : Value)
    (p : Provenance) : ∃ members, embedProvenance config x p = .object members ∧
      members.lookup "ldp_provenance" = some p.toValue ∧
      ∀ key, key ≠ "ldp_provenance" → members.lookup key = (keptMembers x).lookup key := by
  unfold embedProvenance
  rw [if_pos hattach]
  cases x with
  | object members =>
      exact ⟨_, rfl, lookup_insertMember members _ _,
        fun _ hkey => lookup_insertMember_ne members _ hkey⟩
  | _ =>
      refine ⟨_, rfl, rfl, ?_⟩
      intro key hkey
      simp [keptMembers, lookup_cons_if, hkey]

theorem embedded_same_iff (hattach : config.attachProvenance = true) (x y : Value)
    (p : Provenance) :
    Same (embedProvenance config x p) (embedProvenance config y p) ↔ KeptAlike x y := by
  obtain ⟨xs, hx, hxp, hxs⟩ := embedProvenance_object hattach x p
  obtain ⟨ys, hy, hyp, hys⟩ := embedProvenance_object hattach y p
  rw [hx, hy, Value.same_object_iff]
  constructor
  · intro h key hkey
    rw [← hxs key hkey, ← hys key hkey]
    exact h key
  · intro h key
    by_cases hkey : key = "ldp_provenance"
    · rw [hkey, hxp, hyp]
      exact .some (Same.refl _)
    · rw [hxs key hkey, hys key hkey]
      exact h key hkey

theorem lookup_keptMembers (hx : x.asObject = none) (key : String) :
    (keptMembers x).lookup key = if key = "result" then some x else none := by
  have hkept : keptMembers x = [("result", x)] := by
    cases x with
    | object members => cases hx
    | _ => rfl
  rw [hkept, lookup_cons_if, List.lookup_nil]

/-- Outputs that are no objects are kept as they are. -/
theorem keptAlike_of_not_object (hx : x.asObject = none) (hy : y.asObject = none) :
    KeptAlike x y ↔ Same x y := by
  unfold KeptAlike
  constructor
  · intro h
    have hresult := h "result" (by decide)
    rw [lookup_keptMembers hx, lookup_keptMembers hy] at hresult
    simpa using hresult
  · intro h key _
    rw [lookup_keptMembers hx, lookup_keptMembers hy]
    split
    · exact .some h
    · exact .none

/-- Objects are kept but for a provenance of their own. -/
theorem same_objects_iff {xs ys : List (String × Value)} :
    Same (.object xs) (.object ys) ↔ KeptAlike (.object xs) (.object ys) ∧
      Option.Rel Same (xs.lookup "ldp_provenance") (ys.lookup "ldp_provenance") := by
  rw [Value.same_object_iff]
  constructor
  · intro h
    exact ⟨fun key _ => h key, h _⟩
  · intro h key
    by_cases hkey : key = "ldp_provenance"
    · rw [hkey]
      exact h.2
    · exact h.1 key hkey

/-- An object is taken for the output it wraps. -/
theorem keptAlike_wrapped {xs : List (String × Value)} (hy : y.asObject = none) :
    KeptAlike (.object xs) y ↔ (∃ w, xs.lookup "result" = some w ∧ Same w y) ∧
      ∀ key, key ≠ "result" → key ≠ "ldp_provenance" → xs.lookup key = none := by
  unfold KeptAlike
  constructor
  · intro h
    constructor
    · have hresult := h "result" (by decide)
      rw [lookup_keptMembers hy, if_pos rfl] at hresult
      cases hw : xs.lookup "result" with
      | none =>
          rw [keptMembers, hw] at hresult
          cases hresult
      | some w =>
          rw [keptMembers, hw] at hresult
          exact ⟨w, rfl, by simpa using hresult⟩
    · intro key hresult hprovenance
      have hnone := h key hprovenance
      rw [lookup_keptMembers hy, if_neg hresult] at hnone
      cases hkey : xs.lookup key with
      | none => rfl
      | some w =>
          rw [keptMembers, hkey] at hnone
          cases hnone
  · intro h key hprovenance
    obtain ⟨⟨w, hw, hsame⟩, hother⟩ := h
    rw [lookup_keptMembers hy]
    split
    · next hresult =>
        rw [keptMembers, hresult, hw]
        exact .some hsame
    · next hresult =>
        rw [keptMembers, hother key hresult hprovenance]
        exact .none

/-- A status carries an output, of a completed task or with the error of a failed one. -/
def Carries (status : TaskStatus) (output : Value) : Prop :=
  status = .completed output ∨ ∃ error, status = .failed error ∧ error.partialOutput = some output

theorem judged_carries (contract : Option DelegationContract) (violations : List String)
    (output : Value) : Carries (judged contract violations output) output := by
  cases contract with
  | none => exact .inl rfl
  | some contract =>
      unfold judged
      dsimp only
      split
      · exact .inr ⟨_, rfl, rfl⟩
      · exact .inl rfl

end

/-- What is shown of an output under one provenance tells outputs apart up to the
members that are kept, and a poll and a stream show just that. -/
theorem outputs_kept (parseRfc3339 : String → Option ℤ) (hmac : Hmac) (config : LdpAdapterConfig)
    (hattach : config.attachProvenance = true) :
    (∀ (p : Provenance) (x y : Value),
      Same (embedProvenance config x p) (embedProvenance config y p) ↔ KeptAlike x y) ∧
    (∀ x y : Value, x.asObject = none → y.asObject = none → (KeptAlike x y ↔ Same x y)) ∧
    (∀ xs ys : List (String × Value), Same (.object xs) (.object ys) ↔
      KeptAlike (.object xs) (.object ys) ∧
        Option.Rel Same (xs.lookup "ldp_provenance") (ys.lookup "ldp_provenance")) ∧
    (∀ (xs : List (String × Value)) (y : Value), y.asObject = none →
      (KeptAlike (.object xs) y ↔ (∃ w, xs.lookup "result" = some w ∧ Same w y) ∧
        ∀ key, key ≠ "result" → key ≠ "ldp_provenance" → xs.lookup key = none)) ∧
    ∀ (k : AdapterConfig) (response : LdpEnvelope) (id : String) (output : Value)
      (given : Provenance) (now : ℤ) (j : ℕ) (url : String) (r : Except String Report),
      Adapting parseRfc3339 hmac config k → response.body = .taskResult id output given →
      Evaluated response now (traceOf j k.log) →
      (∀ taskId, k.calls[j]? = some (.status url taskId, done r) → ∃ found status,
        r = .ok (.status status) ∧ Carries status (embedProvenance config output
          (annotated found (violationsOf parseRfc3339 found given now) (received given)))) ∧
      ∀ task ticks, k.calls[j]? = some (.stream url task ticks, done r) → ∃ events status,
        r = .ok (.events events) ∧ EndsWith events status ∧
          Carries status (embedProvenance config output (received given)) := by
  refine ⟨fun p x y => embedded_same_iff hattach x y p,
    fun x y hx hy => keptAlike_of_not_object hx hy, fun xs ys => same_objects_iff,
    fun xs y hy => keptAlike_wrapped hy, ?_⟩
  intro k response id output given now j url r h hbody he
  constructor
  · intro taskId hcall
    obtain ⟨found, _, hr⟩ := status_answered h hcall he hbody
    exact ⟨found, _, hr, judged_carries _ _ _⟩
  · intro task ticks hcall
    obtain ⟨events, hevents, hends⟩ := (stream_reported h hcall he).result hbody
    exact ⟨events, _, hevents, hends, judged_carries _ _ _⟩

/-- A result that comes from a further hop looks like one of the delegate itself. -/
theorem wrapped_output_hidden : ¬ ∀ (config : LdpAdapterConfig) (p : Provenance) (x y : Value),
    config.attachProvenance = true →
    Same (embedProvenance config x p) (embedProvenance config y p) → Same x y := by
  intro hall
  have hsame := hall {} longProvenance (.string "done")
    (embedProvenance {} (.string "done") (Provenance.new "ldp:c" "2.0" "t2")) rfl (Same.refl _)
  cases hsame

/-- A text and a null are told apart. -/
theorem outputs_kept_null : ¬ Same (embedProvenance {} (.string "done") longProvenance)
    (embedProvenance {} .null longProvenance) := by
  obtain ⟨hkept, hplain, _⟩ := outputs_kept (fun _ => none) submissionMac {} rfl
  rw [hkept, hplain _ _ rfl rfl]
  intro hsame
  cases hsame

end LdpProtocol.EmbeddedOutputs
