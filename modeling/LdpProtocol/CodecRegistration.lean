import LdpProtocol.FirstOccurrences
import LdpProtocol.ProposalAnswers

/-!
# What another codec does to a negotiation

The codecs of a process are a set to which modes are only added. A delegate advertises
its declared modes that have a codec, and agrees to the first offered one of them. With
more codecs it agrees to no later mode of the offer, and to the same one while nothing
that was added is both declared and offered.
-/
namespace LdpProtocol.CodecRegistration
open FirstOccurrences InterferedRuns
open JsonValues PayloadModes PythonMessages PythonIdentity PythonDelegate DelegateGate
open LinkedDelegate ProposalAnswers

/-- `register_payload_mode`: the set with one mode more. -/
def registerPayloadMode (registered : List PayloadMode) (mode : PayloadMode) : List PayloadMode :=
  registered.insert mode

/-- The registry after a sequence of registrations. -/
def registerAll (registered : List PayloadMode) (modes : List PayloadMode) : List PayloadMode :=
  modes.foldl registerPayloadMode registered

section Registry
variable {registered registered' modes modes' : List PayloadMode} {m : PayloadMode}

theorem mem_registerAll : m ∈ registerAll registered modes ↔ m ∈ registered ∨ m ∈ modes := by
  unfold registerAll
  induction modes generalizing registered with
  | nil => simp
  | cons mode modes ih =>
      rw [List.foldl_cons, ih, registerPayloadMode, List.mem_insert_iff, List.mem_cons]
      constructor
      · intro h
        rcases h with (hmode | hold) | hlater
        · exact .inr (.inl hmode)
        · exact .inl hold
        · exact .inr (.inr hlater)
      · intro h
        rcases h with hold | hmode | hlater
        · exact .inl (.inr hold)
        · exact .inl (.inl hmode)
        · exact .inr hlater

theorem isImplemented_iff : isImplemented registered m = true ↔
    m = .text ∨ m = .semanticFrame ∨ m ∈ registered := by
  simp [isImplemented, or_assoc]

/-- Registering takes no codec away. -/
theorem isImplemented_mono (h : registered ⊆ registered') (hm : isImplemented registered m = true) :
    isImplemented registered' m = true := by
  rw [isImplemented_iff] at hm ⊢
  rcases hm with htext | hframe | hin
  · exact .inl htext
  · exact .inr (.inl hframe)
  · exact .inr (.inr (h hin))

/-- Whether a mode has a codec depends on the set of registered ones only. -/
theorem isImplemented_congr (h : ∀ m, m ∈ registered ↔ m ∈ registered') :
    isImplemented registered = isImplemented registered' := by
  funext m
  rw [Bool.eq_iff_iff, isImplemented_iff, isImplemented_iff, h]

end Registry

section Cards
variable {card : LdpIdentityCard} {registered registered' : List PayloadMode} {m : PayloadMode}

theorem mem_advertised : m ∈ card.advertisedPayloadModes registered ↔
    m ∈ card.supportedPayloadModes ∧ isImplemented registered m = true := by
  unfold LdpIdentityCard.advertisedPayloadModes
  exact List.mem_filter

theorem advertised_mono (h : registered ⊆ registered') :
    card.advertisedPayloadModes registered ⊆ card.advertisedPayloadModes registered' := by
  intro m hm
  rw [mem_advertised] at hm ⊢
  exact ⟨hm.1, isImplemented_mono h hm.2⟩

/-- What is advertised in addition was declared and registered. -/
theorem advertised_added (hm : m ∈ card.advertisedPayloadModes registered')
    (hnot : m ∉ card.advertisedPayloadModes registered) :
    m ∈ registered' ∧ m ∉ registered ∧ m ∈ card.supportedPayloadModes := by
  rw [mem_advertised, isImplemented_iff] at hm hnot
  obtain ⟨hdeclared, himplemented⟩ := hm
  have hneither := not_and.mp hnot hdeclared
  rw [not_or, not_or] at hneither
  have hregistered := (himplemented.resolve_left hneither.1).resolve_left hneither.2.1
  exact ⟨hregistered, hneither.2.2, hdeclared⟩

theorem advertised_congr (h : ∀ m, m ∈ registered ↔ m ∈ registered') :
    card.advertisedPayloadModes registered = card.advertisedPayloadModes registered' := by
  unfold LdpIdentityCard.advertisedPayloadModes
  rw [isImplemented_congr h]

end Cards

section Agreed
variable {initiatorPrefs served served' : List PayloadMode} {m : PayloadMode}

/-- The agreed mode is the first common one, if there is any. -/
theorem agreedMode_first (hin : m ∈ initiatorPrefs) (hserved : m ∈ served) :
    agreedMode (fun _ => true) initiatorPrefs served ∈ initiatorPrefs ∧
      initiatorPrefs.idxOf (agreedMode (fun _ => true) initiatorPrefs served) ≤
        initiatorPrefs.idxOf m := by
  have hm : (true && served.contains m) = true := by simp [hserved]
  unfold agreedMode
  cases hfind : initiatorPrefs.find? fun mode => true && served.contains mode with
  | none => exact (List.find?_eq_none.mp hfind m hin hm).elim
  | some agreed => exact ⟨List.mem_of_find?_eq_some hfind, idxOf_le_of_find? hfind hin hm⟩

/-- Only the offered ones among the served modes count. -/
theorem agreedMode_congr (h : ∀ m ∈ initiatorPrefs, m ∈ served ↔ m ∈ served') :
    agreedMode (fun _ => true) initiatorPrefs served =
      agreedMode (fun _ => true) initiatorPrefs served' := by
  unfold agreedMode
  rw [List.find?_congr]
  intro m hm
  rw [Bool.eq_iff_iff]
  simpa using h m hm

end Agreed

section Proposals
variable {d : LdpDelegate} {display : Value → String} {envelope : LdpEnvelope}
  {registered registered' : List PayloadMode} {payload payload' : NegotiatedPayload}

/-- A proposal that is answered while these codecs are registered is accepted, and this
is what was negotiated: the mode in the answer and what the subclass is told. -/
def Agrees (d : LdpDelegate) (display : Value → String) (envelope : LdpEnvelope)
    (registered : List PayloadMode) (payload : NegotiatedPayload) : Prop :=
  ∃ tr response, DelegateRun (d.handleSessionPropose display envelope) tr (.ok response) ∧
    (∀ ev ∈ tr, Surroundings registered True ev) ∧
    starts tr = [(response.sessionId, payload)] ∧
    response.body = .sessionAccept response.sessionId payload.mode

/-- What is agreed to depends on the codecs through the advertised modes. -/
theorem Agrees.eq (h : Agrees d display envelope registered payload) :
    payload = negotiated d registered envelope := by
  obtain ⟨tr, response, hrun, hs, hstarts, hbody⟩ := h
  by_cases ht : d.trustsValue (LdpDelegate.remoteDomain envelope) = true
  · obtain ⟨sessionId, _, _, hstarted, _⟩ := handleSessionPropose_trusted ht hrun hs
    rw [hstarted] at hstarts
    simp only [List.cons.injEq, Prod.mk.injEq, and_true] at hstarts
    exact hstarts.2.symm
  · unfold LdpDelegate.handleSessionPropose at hrun
    rw [if_neg ht] at hrun
    rw [create_starts hrun] at hstarts
    cases hstarts

theorem Agrees.mode (h : Agrees d display envelope registered payload) :
    payload.mode = agreedMode (fun _ => true) (LdpDelegate.initiatorModes envelope)
      (d.identity.advertisedPayloadModes registered) := by
  rw [h.eq, negotiated, PythonIdentity.negotiatePayloadMode_mode]

/-- The agreed mode stands no later in the offer than any common mode. -/
theorem Agrees.first (h : Agrees d display envelope registered payload) {m : PayloadMode}
    (hin : m ∈ LdpDelegate.initiatorModes envelope)
    (hadvertised : m ∈ d.identity.advertisedPayloadModes registered) :
    payload.mode ∈ LdpDelegate.initiatorModes envelope ∧
      (LdpDelegate.initiatorModes envelope).idxOf payload.mode ≤
        (LdpDelegate.initiatorModes envelope).idxOf m := by
  rw [h.mode]
  exact agreedMode_first hin hadvertised

theorem Agrees.unaffected (h : Agrees d display envelope registered payload)
    (h' : Agrees d display envelope registered' payload') (hsub : registered ⊆ registered')
    (hnone : ∀ m ∈ registered', m ∉ registered → m ∈ d.identity.supportedPayloadModes →
      m ∉ LdpDelegate.initiatorModes envelope) : payload'.mode = payload.mode := by
  rw [h.mode, h'.mode]
  apply agreedMode_congr
  intro m hm
  constructor
  · intro hadvertised
    by_contra hnot
    obtain ⟨hregistered, hnew, hdeclared⟩ := advertised_added hadvertised hnot
    exact hnone m hregistered hnew hdeclared hm
  · intro hadvertised
    exact advertised_mono hsub hadvertised

theorem Agrees.of_same_set (h : Agrees d display envelope registered payload)
    (h' : Agrees d display envelope registered' payload')
    (hset : ∀ m, m ∈ registered ↔ m ∈ registered') : payload = payload' := by
  rw [h.eq, h'.eq, negotiated, negotiated, advertised_congr hset]

end Proposals

/-- Registering codecs never worsens a negotiation: a common mode is replaced only by
an earlier one of the offer, nothing changes while no added mode is both declared and
offered, and sequences of registrations with one set have one result. -/
theorem registration_improves (d : LdpDelegate) (display : Value → String)
    (envelope : LdpEnvelope) (registered registered' : List PayloadMode)
    (hsub : registered ⊆ registered') (payload payload' : NegotiatedPayload)
    (h : Agrees d display envelope registered payload)
    (h' : Agrees d display envelope registered' payload') :
    (payload.mode ∈ LdpDelegate.initiatorModes envelope →
      payload.mode ∈ d.identity.advertisedPayloadModes registered →
      payload'.mode ∈ LdpDelegate.initiatorModes envelope ∧
        (LdpDelegate.initiatorModes envelope).idxOf payload'.mode ≤
          (LdpDelegate.initiatorModes envelope).idxOf payload.mode) ∧
    ((∀ m ∈ registered', m ∉ registered → m ∈ d.identity.supportedPayloadModes →
      m ∉ LdpDelegate.initiatorModes envelope) → payload'.mode = payload.mode) ∧
    ∀ (modes modes' : List PayloadMode) (one other : NegotiatedPayload),
      registered ⊆ registerAll registered modes ∧
      ((∀ m, m ∈ modes ↔ m ∈ modes') →
        Agrees d display envelope (registerAll registered modes) one →
        Agrees d display envelope (registerAll registered modes') other → one = other) := by
  refine ⟨fun hin hadvertised => h'.first hin (advertised_mono hsub hadvertised),
    h.unaffected h' hsub, ?_⟩
  intro modes modes' one other
  constructor
  · intro m hm
    exact mem_registerAll.mpr (.inl hm)
  · intro hset hone hother
    apply hone.of_same_set hother
    intro m
    rw [mem_registerAll, mem_registerAll, hset]

/-- Surroundings in which nothing raises and these codecs are registered. -/
def equipped (registered : List PayloadMode) : (q : DelegateCall) → Unit → q.Answer × Unit
  | .registeredModes, _ => (registered, ())
  | q, s => obliging q s

theorem equipped_surroundings {α : Type} (registered : List PayloadMode) (p : DelegateProgram α) :
    ∀ ev ∈ (Program.exec (equipped registered) p ()).1, Surroundings registered True ev := by
  apply exec_events
  intro q _
  cases q with
  | registeredModes => rfl
  | onSessionStart => exact .inl rfl
  | _ => trivial

/-- A delegate that declares graphs, frames and text. -/
def graphDelegate : LdpDelegate where
  identity := { DelegateGate.signingDelegate.identity with
    supportedPayloadModes := [.semanticGraph, .semanticFrame, .text] }

/-- Without a codec for graphs it agrees to frames, with one to graphs. -/
theorem registration_improves_graphDelegate : ∃ payload payload',
    Agrees graphDelegate (fun _ => "") strangeProposal [] payload ∧
    Agrees graphDelegate (fun _ => "") strangeProposal [.semanticGraph] payload' ∧
    payload.mode = .semanticFrame ∧ payload'.mode = .semanticGraph ∧
    (LdpDelegate.initiatorModes strangeProposal).idxOf payload'.mode ≤
      (LdpDelegate.initiatorModes strangeProposal).idxOf payload.mode := by
  have hagrees : ∀ registered, Agrees graphDelegate (fun _ => "") strangeProposal registered
      (negotiated graphDelegate registered strangeProposal) := by
    intro registered
    exact ⟨_, _, exec_run (equipped registered) (fun _ _ => trivial) _ (),
      equipped_surroundings registered _, rfl, rfl⟩
  refine ⟨_, _, hagrees [], hagrees [.semanticGraph], by decide, by decide, ?_⟩
  exact ((registration_improves graphDelegate (fun _ => "") strangeProposal [] [.semanticGraph]
    (by simp) _ _ (hagrees []) (hagrees [.semanticGraph])).1 (by decide) (by decide)).2

end LdpProtocol.CodecRegistration
