import LdpProtocol.FallbackChains

/-!
# The path down from the agreed mode

The Python chain has the modes below the agreed one that both lists name, in the
order in which the initiator first names them. That need not be the order of the
mode numbers. Nothing is said here of text where one of the lists leaves it out.
-/
namespace LdpProtocol.DowngradePath
open PayloadModes hiding negotiatePayloadMode
open FirstOccurrences FallbackChains
open PythonIdentity (negotiatePayloadMode)

/-- The agreed mode, and the chain after it. -/
def path (initiatorPrefs responderPrefs : List PayloadMode) : List PayloadMode :=
  (negotiatePayloadMode initiatorPrefs responderPrefs).mode ::
    (negotiatePayloadMode initiatorPrefs responderPrefs).fallbackChain

/-- Every mode has a lower number than those before it. -/
def Descends (modes : List PayloadMode) : Prop :=
  modes.Pairwise fun m m' => m'.modeNumber < m.modeNumber

/-- Both lists name the mode, and it is below the agreed one. -/
def Below (initiatorPrefs responderPrefs : List PayloadMode) (m : PayloadMode) : Prop :=
  m ∈ initiatorPrefs ∧ m ∈ responderPrefs ∧ m.modeNumber <
    (negotiatePayloadMode initiatorPrefs responderPrefs).mode.modeNumber

/-- The initiator names the first mode before the second. -/
def Preferred (initiatorPrefs : List PayloadMode) (m m' : PayloadMode) : Prop :=
  initiatorPrefs.idxOf m < initiatorPrefs.idxOf m'

section
variable {initiatorPrefs responderPrefs : List PayloadMode} {m : PayloadMode}

theorem mem_chain_iff :
    m ∈ (negotiatePayloadMode initiatorPrefs responderPrefs).fallbackChain ↔
      Below initiatorPrefs responderPrefs m := by
  rw [mem_python_chain]
  constructor
  · intro h
    exact ⟨h.1, h.2.2⟩
  · intro h
    refine ⟨h.1, ?_, h.2⟩
    intro heq
    have hlt := h.2.2
    rw [← heq] at hlt
    exact lt_irrefl _ hlt

/-- A relation holds along the chain if it respects the initiator's preference. -/
theorem chain_pairwise_iff {r : PayloadMode → PayloadMode → Prop} :
    (negotiatePayloadMode initiatorPrefs responderPrefs).fallbackChain.Pairwise r ↔
      ∀ m m', Below initiatorPrefs responderPrefs m → Below initiatorPrefs responderPrefs m' →
        Preferred initiatorPrefs m m' → r m m' := by
  rw [python_chain_eq, ← filter_eraseDups, List.pairwise_filter, pairwise_eraseDups_iff]
  simp only [below, decide_eq_true_eq]
  constructor
  · intro h m m' hm hm' hpreferred
    exact h m hm.1 m' hm'.1 hpreferred hm.2 hm'.2
  · intro h m hm m' hm' hpreferred hbelow hbelow'
    exact h m m' ⟨hm, hbelow⟩ ⟨hm', hbelow'⟩ hpreferred

theorem chain_preferred (initiatorPrefs responderPrefs : List PayloadMode) :
    (negotiatePayloadMode initiatorPrefs responderPrefs).fallbackChain.Pairwise
      (Preferred initiatorPrefs) :=
  chain_pairwise_iff.mpr fun _ _ _ _ hpreferred => hpreferred

theorem path_descends_iff : Descends (path initiatorPrefs responderPrefs) ↔
    ∀ m m', Below initiatorPrefs responderPrefs m → Below initiatorPrefs responderPrefs m' →
      Preferred initiatorPrefs m m' → m'.modeNumber < m.modeNumber := by
  unfold Descends path
  rw [List.pairwise_cons, chain_pairwise_iff]
  constructor
  · intro h
    exact h.2
  · intro h
    exact ⟨fun m hm => (mem_chain_iff.mp hm).2.2, h⟩

theorem path_getLast_iff (hmode : (negotiatePayloadMode initiatorPrefs responderPrefs).mode ≠ .text)
    (hinitiator : .text ∈ initiatorPrefs) (hresponder : .text ∈ responderPrefs) :
    (path initiatorPrefs responderPrefs).getLast? = some .text ↔
      ∀ m, Below initiatorPrefs responderPrefs m → m ≠ .text →
        Preferred initiatorPrefs m .text := by
  have hbelow : Below initiatorPrefs responderPrefs .text :=
    ⟨hinitiator, hresponder, modeNumber_pos.mpr hmode⟩
  have hin := mem_chain_iff.mpr hbelow
  have hlast : (path initiatorPrefs responderPrefs).getLast? =
      (negotiatePayloadMode initiatorPrefs responderPrefs).fallbackChain.getLast? := by
    unfold path
    rw [List.getLast?_cons, List.getLast?_eq_some_getLast (List.ne_nil_of_mem hin)]
    rfl
  rw [hlast, getLast?_eq_some_iff (chain_preferred initiatorPrefs responderPrefs)]
  constructor
  · intro h m hm hne
    have hle := h.2 m (mem_chain_iff.mpr hm)
    refine lt_of_le_of_ne hle ?_
    intro heq
    exact hne ((List.idxOf_inj hm.1).mp heq)
  · intro h
    refine ⟨hin, ?_⟩
    intro m hm
    by_cases htext : m = .text
    · rw [htext]
    · exact le_of_lt (h m (mem_chain_iff.mp hm) htext)

end

/-- Below the agreed mode stand the modes with lower numbers that both lists name,
each once and in the initiator's order; text is left open unless both name it. The
numbers descend exactly if the initiator prefers these modes so, and the path ends in
text exactly if it prefers the others to text. -/
theorem downgrade_path (initiatorPrefs responderPrefs : List PayloadMode) :
    ((∀ m ∈ (negotiatePayloadMode initiatorPrefs responderPrefs).fallbackChain, m.modeNumber <
        (negotiatePayloadMode initiatorPrefs responderPrefs).mode.modeNumber) ∧
      (negotiatePayloadMode initiatorPrefs responderPrefs).fallbackChain.Nodup ∧
      (negotiatePayloadMode initiatorPrefs responderPrefs).fallbackChain.Pairwise
        (Preferred initiatorPrefs)) ∧
    (∀ m, m ≠ .text ∨ (.text ∈ initiatorPrefs ∧ .text ∈ responderPrefs) →
      (m ∈ (negotiatePayloadMode initiatorPrefs responderPrefs).fallbackChain ↔
        Below initiatorPrefs responderPrefs m)) ∧
    (Descends (path initiatorPrefs responderPrefs) ↔
      ∀ m m', Below initiatorPrefs responderPrefs m → Below initiatorPrefs responderPrefs m' →
        Preferred initiatorPrefs m m' → m'.modeNumber < m.modeNumber) ∧
    ((negotiatePayloadMode initiatorPrefs responderPrefs).mode ≠ .text →
      .text ∈ initiatorPrefs → .text ∈ responderPrefs →
      ((path initiatorPrefs responderPrefs).getLast? = some .text ↔
        ∀ m, Below initiatorPrefs responderPrefs m → m ≠ .text →
          Preferred initiatorPrefs m .text)) := by
  refine ⟨⟨fun m hm => (mem_chain_iff.mp hm).2.2, ?_, chain_preferred _ _⟩,
    fun m _ => mem_chain_iff, path_descends_iff, path_getLast_iff⟩
  rw [python_chain_eq]
  exact nodup_eraseDups _

/-- An initiator that prefers text to the semantic frame goes up again after it. -/
theorem path_ascends : ¬ ∀ initiatorPrefs responderPrefs : List PayloadMode,
    Descends (path initiatorPrefs responderPrefs) ∧
    (∀ m, m ∈ (negotiatePayloadMode initiatorPrefs responderPrefs).fallbackChain ↔
      ((m ∈ initiatorPrefs ∧ m ∈ responderPrefs) ∨ m = .text) ∧ m.modeNumber <
        (negotiatePayloadMode initiatorPrefs responderPrefs).mode.modeNumber) ∧
    ((negotiatePayloadMode initiatorPrefs responderPrefs).mode ≠ .text →
      (path initiatorPrefs responderPrefs).getLast? = some .text) := by
  intro h
  have hlast := (h [.semanticGraph, .text, .semanticFrame]
    [.semanticGraph, .semanticFrame, .text]).2.2 (by decide)
  exact absurd hlast (by decide)

end LdpProtocol.DowngradePath
