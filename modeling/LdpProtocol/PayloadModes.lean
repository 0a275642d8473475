import LdpProtocol.JsonValues

/-!
# Payload modes and the Rust negotiation

The four modes and their wire names are shared by both SDKs. `isImplemented`
and `negotiatePayloadMode` are the Rust ones; the Python SDK asks a codec
registry instead and negotiates without that test.
-/
namespace LdpProtocol.PayloadModes
open JsonValues

inductive PayloadMode where
  | text
  | semanticFrame
  | embeddingHints
  | semanticGraph
  deriving DecidableEq, Repr

namespace PayloadMode

/-- Mode number for wire protocol. -/
def modeNumber : PayloadMode → ℕ
  | .text => 0
  | .semanticFrame => 1
  | .embeddingHints => 2
  | .semanticGraph => 3

def isImplemented : PayloadMode → Bool
  | .text | .semanticFrame => true
  | .embeddingHints | .semanticGraph => false

def wireName : PayloadMode → String
  | .text => "text"
  | .semanticFrame => "semantic_frame"
  | .embeddingHints => "embedding_hints"
  | .semanticGraph => "semantic_graph"

def ofWireName : String → Option PayloadMode
  | "text" => some .text
  | "semantic_frame" => some .semanticFrame
  | "embedding_hints" => some .embeddingHints
  | "semantic_graph" => some .semanticGraph
  | _ => none

def toValue (m : PayloadMode) : Value := .string m.wireName

def fromValue (v : Value) : Option PayloadMode := v.asUnitVariant ofWireName

@[simp] theorem ofWireName_wireName (m : PayloadMode) : ofWireName m.wireName = some m := by
  cases m <;> rfl

@[simp] theorem fromValue_toValue (m : PayloadMode) : fromValue m.toValue = some m :=
  ofWireName_wireName m

@[simp] theorem asArray_fromValue (ms : List PayloadMode) :
    (Value.array (ms.map toValue)).asArray fromValue = some ms :=
  Value.asArray_map fromValue_toValue ms

theorem isImplemented_iff (m : PayloadMode) :
    m.isImplemented = true ↔ m = .text ∨ m = .semanticFrame := by
  cases m <;> decide

end PayloadMode

/-- Result of payload mode negotiation between two delegates. -/
structure NegotiatedPayload where
  mode : PayloadMode
  fallbackChain : List PayloadMode
  deriving DecidableEq, Repr

/-- The mode both negotiations settle on: the first acceptable one in the
initiator's list that the responder names, with text as the floor. -/
def agreedMode (usable : PayloadMode → Bool) (initiatorPrefs responderPrefs : List PayloadMode) :
    PayloadMode :=
  (initiatorPrefs.find? fun mode => usable mode && responderPrefs.contains mode).getD .text

def negotiatePayloadMode (initiatorPrefs responderPrefs : List PayloadMode) :
    NegotiatedPayload :=
  let agreed := (initiatorPrefs.find? fun mode =>
    mode.isImplemented && responderPrefs.contains mode).getD .text
  let fallbackChain := initiatorPrefs.filter fun mode =>
    mode.isImplemented && mode != agreed && responderPrefs.contains mode &&
      decide (mode.modeNumber < agreed.modeNumber)
  ⟨agreed, fallbackChain⟩

theorem negotiatePayloadMode_mode (initiatorPrefs responderPrefs : List PayloadMode) :
    (negotiatePayloadMode initiatorPrefs responderPrefs).mode =
      agreedMode PayloadMode.isImplemented initiatorPrefs responderPrefs := rfl

theorem agreedMode_cases (usable : PayloadMode → Bool)
    (initiatorPrefs responderPrefs : List PayloadMode) :
    agreedMode usable initiatorPrefs responderPrefs = .text ∨
      (usable (agreedMode usable initiatorPrefs responderPrefs) = true ∧
        agreedMode usable initiatorPrefs responderPrefs ∈ initiatorPrefs ∧
        agreedMode usable initiatorPrefs responderPrefs ∈ responderPrefs) := by
  unfold agreedMode
  cases h : initiatorPrefs.find? fun mode => usable mode && responderPrefs.contains mode with
  | none => exact .inl rfl
  | some m =>
      have hm := List.find?_some h
      simp only [Bool.and_eq_true, List.contains_iff_mem] at hm
      exact .inr ⟨hm.1, List.mem_of_find?_eq_some h, hm.2⟩

theorem mem_fallbackChain {initiatorPrefs responderPrefs : List PayloadMode}
    {m : PayloadMode} :
    m ∈ (negotiatePayloadMode initiatorPrefs responderPrefs).fallbackChain ↔
      m ∈ initiatorPrefs ∧ m.isImplemented = true ∧ m ∈ responderPrefs ∧
        m.modeNumber < (negotiatePayloadMode initiatorPrefs responderPrefs).mode.modeNumber := by
  simp only [negotiatePayloadMode, List.mem_filter, Bool.and_eq_true, bne_iff_ne,
    List.contains_iff_mem, decide_eq_true_eq]
  constructor
  · rintro ⟨hm, ⟨⟨hi, _⟩, hr⟩, hn⟩
    exact ⟨hm, hi, hr, hn⟩
  · rintro ⟨hm, hi, hr, hn⟩
    refine ⟨hm, ⟨⟨hi, ?_⟩, hr⟩, hn⟩
    rintro rfl
    exact lt_irrefl _ hn

/-- A responder that is offered the agreed mode alone, with text behind it,
settles on the same mode. -/
theorem agreedMode_proposed (initiatorPrefs responderPrefs : List PayloadMode) :
    agreedMode PayloadMode.isImplemented
        [agreedMode PayloadMode.isImplemented initiatorPrefs responderPrefs, .text]
        responderPrefs =
      agreedMode PayloadMode.isImplemented initiatorPrefs responderPrefs := by
  rcases agreedMode_cases PayloadMode.isImplemented initiatorPrefs responderPrefs with
    h | ⟨hi, _, hr⟩
  · rw [h]
    by_cases hc : PayloadMode.text ∈ responderPrefs <;>
      simp [agreedMode, List.find?, PayloadMode.isImplemented, hc]
  · generalize agreedMode PayloadMode.isImplemented initiatorPrefs responderPrefs = m at hi hr
    simp [agreedMode, List.find?, hi, hr]

/-- Whether the first implemented preference that the responder names is the
semantic frame, as a condition on the lists. -/
def SemanticFrameFirst (initiatorPrefs responderPrefs : List PayloadMode) : Prop :=
  (initiatorPrefs.find? fun mode => mode.isImplemented && responderPrefs.contains mode) =
    some .semanticFrame

theorem mode_eq_semanticFrame_iff (initiatorPrefs responderPrefs : List PayloadMode) :
    (negotiatePayloadMode initiatorPrefs responderPrefs).mode = .semanticFrame ↔
      SemanticFrameFirst initiatorPrefs responderPrefs := by
  unfold SemanticFrameFirst negotiatePayloadMode
  cases h : initiatorPrefs.find? fun mode => mode.isImplemented && responderPrefs.contains mode <;>
    simp

theorem mode_cases (initiatorPrefs responderPrefs : List PayloadMode) :
    (negotiatePayloadMode initiatorPrefs responderPrefs).mode = .text ∨
      (negotiatePayloadMode initiatorPrefs responderPrefs).mode = .semanticFrame := by
  rw [negotiatePayloadMode_mode]
  rcases agreedMode_cases PayloadMode.isImplemented initiatorPrefs responderPrefs with
    h | ⟨himpl, _, _⟩
  · exact .inl h
  · exact (PayloadMode.isImplemented_iff _).mp himpl

theorem semanticFrameFirst_mem {initiatorPrefs responderPrefs : List PayloadMode}
    (h : SemanticFrameFirst initiatorPrefs responderPrefs) :
    .semanticFrame ∈ initiatorPrefs ∧ .semanticFrame ∈ responderPrefs := by
  have hfound := List.find?_some h
  simp only [Bool.and_eq_true, List.contains_iff_mem] at hfound
  exact ⟨List.mem_of_find?_eq_some h, hfound.2⟩

theorem semanticFrameFirst_requested {responderPrefs : List PayloadMode} :
    SemanticFrameFirst [.semanticFrame, .text] responderPrefs ↔
      .semanticFrame ∈ responderPrefs := by
  constructor
  · intro h
    exact (semanticFrameFirst_mem h).2
  · intro h
    have hcontains : responderPrefs.contains .semanticFrame = true := List.contains_iff_mem.mpr h
    simp [SemanticFrameFirst, List.find?, PayloadMode.isImplemented, h]

end LdpProtocol.PayloadModes
