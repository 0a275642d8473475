import LdpProtocol.LinkedDelegate

/-!
# How the Python delegate answers a proposal

The configuration of a proposal is whatever JSON the peer sends. The delegate
answers every one: a domain that is no trusted name is rejected, and otherwise
the first item that names a served mode decides, whatever the other items are.
What is served is what the advertised card says.
-/
namespace LdpProtocol.ProposalAnswers
open InteractivePrograms InterferedRuns
open JsonValues PayloadModes EnvelopeSigning PythonMessages PythonSigning PythonIdentity
open PythonDelegate DelegateGate LinkedDelegate

/-- The declared domain, or "unknown", is the delegate's own or a trusted peer. -/
def Trusted (d : LdpDelegate) (envelope : LdpEnvelope) : Prop :=
  ∃ peer, LdpDelegate.remoteDomain envelope = .string peer ∧
    (peer = d.identity.trustDomain.name ∨
      (d.identity.trustDomain.allowCrossDomain = true ∧
        peer ∈ d.identity.trustDomain.trustedPeers))

/-- The item is no string that names a served mode. -/
def NotServed (served : List PayloadMode) (item : Value) : Prop :=
  ∀ mode, asMode item = some mode → mode ∉ served

/-- The first item that names a served mode names this one. -/
def FirstServed (served : List PayloadMode) (items : List Value) (mode : PayloadMode) : Prop :=
  ∃ before item after, items = before ++ item :: after ∧ asMode item = some mode ∧
    mode ∈ served ∧ ∀ other ∈ before, NotServed served other

/-- The mode that answers an offer: the first served one of a list, else TEXT. -/
def Answers (served : List PayloadMode) (offer : Option Value) (mode : PayloadMode) : Prop :=
  (∃ items, offer = some (.array items) ∧ FirstServed served items mode) ∨
    (mode = .text ∧ ∀ items, offer = some (.array items) → ∀ item ∈ items, NotServed served item)

section Offers
variable {served : List PayloadMode} {item : Value} {items : List Value} {mode : PayloadMode}

theorem firstServed_cons : FirstServed served (item :: items) mode ↔
    (asMode item = some mode ∧ mode ∈ served) ∨
      (NotServed served item ∧ FirstServed served items mode) := by
  constructor
  · intro h
    obtain ⟨before, first, after, hitems, hmode, hserved, hbefore⟩ := h
    cases before with
    | nil =>
        cases hitems
        exact .inl ⟨hmode, hserved⟩
    | cons skipped before =>
        cases hitems
        have hskipped := hbefore _ List.mem_cons_self
        have hrest : ∀ other ∈ before, NotServed served other :=
          fun other hin => hbefore other (List.mem_cons_of_mem _ hin)
        exact .inr ⟨hskipped, before, first, after, rfl, hmode, hserved, hrest⟩
  · intro h
    rcases h with ⟨hmode, hserved⟩ | ⟨hskipped, before, first, after, hitems, hmode, hserved, hrest⟩
    · exact ⟨[], item, items, rfl, hmode, hserved, by simp⟩
    · refine ⟨item :: before, first, after, by rw [hitems]; rfl, hmode, hserved, ?_⟩
      intro other hin
      rcases List.mem_cons.mp hin with hother | hin
      · rw [hother]
        exact hskipped
      · exact hrest other hin

theorem notServed_of_named {named : PayloadMode} (h : asMode item = some named) :
    NotServed served item ↔ named ∉ served := by
  simp [NotServed, h]

/-- Dropping the unknown items first finds the same mode. -/
theorem find_named (served : List PayloadMode) (items : List Value) (mode : PayloadMode) :
    ((items.filterMap asMode).find? fun m => served.contains m) = some mode ↔
      FirstServed served items mode := by
  induction items with
  | nil => simp [FirstServed]
  | cons item items ih =>
      rw [firstServed_cons, ← ih, List.filterMap_cons]
      cases hitem : asMode item with
      | none => simp [NotServed, hitem]
      | some named =>
          rw [notServed_of_named hitem, List.find?_cons]
          by_cases hserved : named ∈ served
          · have hcontains : served.contains named = true := List.contains_iff_mem.mpr hserved
            rw [hcontains]
            constructor
            · intro hmode
              cases hmode
              exact .inl ⟨rfl, hserved⟩
            · intro h
              rcases h with ⟨hmode, _⟩ | ⟨hnot, _⟩
              · exact hmode
              · exact (hnot hserved).elim
          · have hcontains : served.contains named = false := by
              simpa using hserved
            rw [hcontains]
            constructor
            · intro hmode
              exact .inr ⟨hserved, hmode⟩
            · intro h
              rcases h with ⟨hmode, hin⟩ | ⟨_, hmode⟩
              · cases hmode
                exact (hserved hin).elim
              · exact hmode

theorem find_named_none (served : List PayloadMode) (items : List Value) :
    ((items.filterMap asMode).find? fun m => served.contains m) = none ↔
      ∀ item ∈ items, NotServed served item := by
  simp only [List.find?_eq_none, List.mem_filterMap, NotServed, List.contains_iff_mem]
  constructor
  · intro h item hitem mode hmode
    exact h mode ⟨item, hitem, hmode⟩
  · intro h mode hmode
    obtain ⟨item, hitem, hmode⟩ := hmode
    exact h item hitem mode hmode

theorem answers_single {m : PayloadMode} (hm : m ≠ .text)
    (h : Answers served (some (.array [m.toValue])) mode) : m ∈ served ↔ mode = m := by
  rcases h with ⟨items, hoffer, before, item, after, hitems, hmode, hserved, hbefore⟩ |
    ⟨htext, hnone⟩
  · cases hoffer
    cases before with
    | nil =>
        cases hitems
        rw [asMode_toValue] at hmode
        cases hmode
        exact ⟨fun _ => rfl, fun _ => hserved⟩
    | cons skipped before => simp at hitems
  · have hnot : m ∉ served := hnone _ rfl _ List.mem_cons_self m (asMode_toValue m)
    rw [htext]
    exact ⟨fun hin => (hnot hin).elim, fun heq => (hm heq.symm).elim⟩

end Offers

section Proposals
variable {d : LdpDelegate} {display : Value → String} {envelope : LdpEnvelope}
  {registered : List PayloadMode}

theorem trusts_iff {domain : DelegateIdentity.TrustDomain} {peer : String} :
    domain.trusts peer = true ↔ peer = domain.name ∨
      (domain.allowCrossDomain = true ∧ peer ∈ domain.trustedPeers) := by
  unfold DelegateIdentity.TrustDomain.trusts
  split
  · next hown => simp [hown]
  · next hother => simp [Ne.symm hother]

theorem trusted_iff : Trusted d envelope ↔
    d.trustsValue (LdpDelegate.remoteDomain envelope) = true := by
  unfold Trusted LdpDelegate.trustsValue
  cases LdpDelegate.remoteDomain envelope with
  | string peer =>
      rw [trusts_iff]
      constructor
      · intro h
        obtain ⟨name, hname, htrust⟩ := h
        cases hname
        exact htrust
      · intro h
        exact ⟨peer, rfl, h⟩
  | _ => simp

theorem negotiated_answers (d : LdpDelegate) (registered : List PayloadMode)
    (envelope : LdpEnvelope) : Answers (d.advertisedIdentity registered).supportedPayloadModes
    (LdpDelegate.configGet envelope "preferred_payload_modes")
    (negotiated d registered envelope).mode := by
  unfold negotiated
  rw [PythonIdentity.negotiatePayloadMode_mode]
  unfold agreedMode LdpDelegate.initiatorModes LdpDelegate.advertisedIdentity Answers
  simp only [Bool.true_and]
  split
  · next items hoffer =>
      cases hfind : (items.filterMap asMode).find? fun m =>
          (d.identity.advertisedPayloadModes registered).contains m with
      | some mode => exact .inl ⟨items, hoffer, (find_named _ _ _).mp hfind⟩
      | none =>
          refine .inr ⟨rfl, ?_⟩
          intro items' hitems
          cases hoffer.symm.trans hitems
          exact (find_named_none _ _).mp hfind
  · next hoffer =>
      refine .inr ⟨rfl, ?_⟩
      intro items hitems
      exact (hoffer items hitems).elim

theorem answers_implemented {offer : Option Value} {mode : PayloadMode}
    (h : Answers (d.advertisedIdentity registered).supportedPayloadModes offer mode) :
    isImplemented registered mode = true := by
  rcases h with ⟨_, _, _, _, _, _, _, hserved, _⟩ | ⟨htext, _⟩
  · exact (List.mem_filter.mp hserved).2
  · rw [htext]
    rfl

/-- Every proposal is answered: rejected exactly when its domain is not trusted,
and otherwise accepted with the first served mode it names, or TEXT. What is
agreed has a codec, and a mode is served exactly when it is accepted alone. -/
theorem proposal_answered (d : LdpDelegate) (display : Value → String) (envelope : LdpEnvelope)
    (registered : List PayloadMode) (tr : Trace) (r : Except Raised LdpEnvelope)
    (h : DelegateRun (d.handleSessionPropose display envelope) tr r)
    (hs : ∀ ev ∈ tr, Surroundings registered False ev) : ∃ response, r = .ok response ∧
    (response.body.type = "SESSION_REJECT" ↔ ¬ Trusted d envelope) ∧
    (¬ Trusted d envelope →
      response.body =
        .sessionReject (d.rejectReason display (LdpDelegate.remoteDomain envelope))) ∧
    (Trusted d envelope → ∃ mode,
      response.body = .sessionAccept response.sessionId mode ∧
      Answers (d.advertisedIdentity registered).supportedPayloadModes
        (LdpDelegate.configGet envelope "preferred_payload_modes") mode ∧
      isImplemented registered mode = true ∧
      ∀ m, m ≠ .text → LdpDelegate.configGet envelope "preferred_payload_modes" =
          some (.array [m.toValue]) →
        (m ∈ (d.advertisedIdentity registered).supportedPayloadModes ↔ mode = m)) := by
  by_cases ht : d.trustsValue (LdpDelegate.remoteDomain envelope) = true
  · have htrusted : Trusted d envelope := trusted_iff.mpr ht
    obtain ⟨sessionId, messageId, timestamp, _, hr⟩ := handleSessionPropose_trusted ht h hs
    rcases hr with ⟨_, _, hfalse⟩ | hok
    · exact hfalse.elim
    · refine ⟨_, hok, ?_, fun hnot => (hnot htrusted).elim, ?_⟩
      · have hnot : "SESSION_ACCEPT" ≠ "SESSION_REJECT" := by decide
        exact ⟨fun htype => (hnot htype).elim, fun hn => (hn htrusted).elim⟩
      · intro _
        have hanswers := negotiated_answers d registered envelope
        refine ⟨_, rfl, hanswers, answers_implemented hanswers, ?_⟩
        intro m hm hoffer
        rw [hoffer] at hanswers
        exact answers_single hm hanswers
  · have hnot : ¬ Trusted d envelope := fun htrusted => ht (trusted_iff.mp htrusted)
    unfold LdpDelegate.handleSessionPropose at h
    rw [if_neg ht] at h
    obtain ⟨_, messageId, timestamp, hr⟩ := create_run d envelope h
    refine ⟨_, hr, ⟨fun _ => hnot, fun _ => rfl⟩, fun _ => rfl, fun htrusted => ?_⟩
    exact (hnot htrusted).elim

end Proposals

/-- A proposal that offers a null, an unknown name and two modes. -/
def strangeProposal : LdpEnvelope :=
  LdpEnvelope.create "m1" "t0" "s1" "ldp:a" "ldp:b" (.sessionPropose
    [("trust_domain", .string "default"),
      ("preferred_payload_modes",
        .array [.null, .string "telepathy", .string "semantic_graph", .string "semantic_frame"])])
    .text

theorem proposal_answered_strangeProposal : ∃ response mode,
    (Program.exec obliging
      (signingDelegate.handleSessionPropose (fun _ => "") strangeProposal) ()).2.2 = .ok response ∧
    response.body = .sessionAccept response.sessionId mode ∧ isImplemented [] mode = true := by
  obtain ⟨response, hr, _, _, haccept⟩ := proposal_answered signingDelegate (fun _ => "")
    strangeProposal [] _ _ (exec_run obliging (fun _ _ => trivial) _ ())
    (obliging_surroundings False _)
  obtain ⟨mode, hbody, _, himplemented, _⟩ := haccept ⟨"default", rfl, .inl rfl⟩
  exact ⟨response, mode, hr, hbody, himplemented⟩

end LdpProtocol.ProposalAnswers
