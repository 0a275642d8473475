import LdpProtocol.FallbackChains

/-!
# The two negotiations

Rust negotiates over the lists as they are and looks only at the modes it has a
codec for; Python is given lists of such modes. Both settle on the same mode. The
Python chain is the Rust chain without its repetitions.
-/
namespace LdpProtocol.NegotiationAgreement
open PayloadModes FirstOccurrences FallbackChains

/-- The modes that an empty codec registry implements. -/
def implemented (modes : List PayloadMode) : List PayloadMode :=
  modes.filter (PythonIdentity.isImplemented [])

def pythonOutcome (initiatorPrefs responderPrefs : List PayloadMode) : NegotiatedPayload :=
  PythonIdentity.negotiatePayloadMode (implemented initiatorPrefs) (implemented responderPrefs)

section
variable {initiatorPrefs responderPrefs : List PayloadMode}

/-- An empty registry has the modes that the Rust SDK implements. -/
theorem isImplemented_empty (m : PayloadMode) :
    PythonIdentity.isImplemented [] m = m.isImplemented := by
  cases m <;> rfl

theorem mem_implemented {modes : List PayloadMode} {m : PayloadMode} :
    m ∈ implemented modes ↔ m ∈ modes ∧ m.isImplemented = true := by
  unfold implemented
  rw [List.mem_filter, isImplemented_empty]

theorem modes_agree (initiatorPrefs responderPrefs : List PayloadMode) :
    (pythonOutcome initiatorPrefs responderPrefs).mode =
      (negotiatePayloadMode initiatorPrefs responderPrefs).mode := by
  have hfind : (implemented initiatorPrefs).find?
        (fun mode => (implemented responderPrefs).contains mode) =
      initiatorPrefs.find? fun mode => mode.isImplemented && responderPrefs.contains mode := by
    have hfilter : implemented initiatorPrefs =
      initiatorPrefs.filter (PythonIdentity.isImplemented []) := rfl
    rw [hfilter, List.find?_filter]
    congr 1
    funext m
    rw [Bool.eq_iff_iff]
    simp only [decide_eq_true_eq, Bool.and_eq_true, List.contains_iff_mem, mem_implemented,
      isImplemented_empty]
    tauto
  unfold pythonOutcome PythonIdentity.negotiatePayloadMode negotiatePayloadMode
  dsimp only
  rw [hfind]

theorem chains_agree (initiatorPrefs responderPrefs : List PayloadMode) :
    (pythonOutcome initiatorPrefs responderPrefs).fallbackChain =
      (negotiatePayloadMode initiatorPrefs responderPrefs).fallbackChain.eraseDups := by
  have hmode := modes_agree initiatorPrefs responderPrefs
  unfold pythonOutcome at hmode ⊢
  rw [python_chain_eq, hmode]
  congr 1
  have hfilter : implemented initiatorPrefs =
    initiatorPrefs.filter (PythonIdentity.isImplemented []) := rfl
  rw [hfilter, List.filter_filter]
  apply List.filter_congr
  intro m _
  rw [Bool.eq_iff_iff]
  simp only [below, mem_implemented, isImplemented_empty, Bool.and_eq_true, decide_eq_true_eq,
    bne_iff_ne, List.contains_iff_mem]
  constructor
  · intro h
    refine ⟨⟨⟨h.2, ?_⟩, h.1.1.1⟩, h.1.2⟩
    intro heq
    have hlt := h.1.2
    rw [heq] at hlt
    exact lt_irrefl _ hlt
  · intro h
    exact ⟨⟨⟨h.1.2, h.1.1.1⟩, h.2⟩, h.1.1.1⟩

/-- The Rust chain repeats itself only if text stands below the semantic frame more
than once. -/
theorem nodup_fallbackChain_iff :
    (negotiatePayloadMode initiatorPrefs responderPrefs).fallbackChain.Nodup ↔
      (SemanticFrameFirst initiatorPrefs responderPrefs → .text ∈ responderPrefs →
        initiatorPrefs.count .text ≤ 1) := by
  rw [← mode_eq_semanticFrame_iff]
  rcases mode_cases initiatorPrefs responderPrefs with h | h
  · rw [fallbackChain_text h, h]
    simp
  · rw [fallbackChain_semanticFrame h, h]
    by_cases htext : PayloadMode.text ∈ responderPrefs
    · simp [htext, List.nodup_replicate]
    · simp [htext]

end

/-- Both settle on one mode, and Python's chain is Rust's without its repetitions. So
they agree unless text stands below the semantic frame more than once. -/
theorem negotiations_agree_iff (initiatorPrefs responderPrefs : List PayloadMode) :
    (negotiatePayloadMode initiatorPrefs responderPrefs).mode =
      (pythonOutcome initiatorPrefs responderPrefs).mode ∧
    (pythonOutcome initiatorPrefs responderPrefs).fallbackChain =
      (negotiatePayloadMode initiatorPrefs responderPrefs).fallbackChain.eraseDups ∧
    (negotiatePayloadMode initiatorPrefs responderPrefs =
        pythonOutcome initiatorPrefs responderPrefs ↔
      (SemanticFrameFirst initiatorPrefs responderPrefs → .text ∈ responderPrefs →
        initiatorPrefs.count .text ≤ 1)) := by
  have hmode := modes_agree initiatorPrefs responderPrefs
  have hchain := chains_agree initiatorPrefs responderPrefs
  refine ⟨hmode.symm, hchain, ?_⟩
  rw [← nodup_fallbackChain_iff, ← eraseDups_eq_self_iff, ← hchain]
  constructor
  · intro h
    rw [← h]
  · intro h
    exact congrArg₂ NegotiatedPayload.mk hmode.symm h.symm

/-- Text named twice is there twice in one chain and once in the other. -/
theorem text_twice_disagrees : ¬ ∀ initiatorPrefs responderPrefs : List PayloadMode,
    negotiatePayloadMode initiatorPrefs responderPrefs =
      pythonOutcome initiatorPrefs responderPrefs := by
  intro h
  exact absurd (h [.semanticFrame, .text, .text] [.semanticFrame, .text]) (by decide)

end LdpProtocol.NegotiationAgreement
