import LdpProtocol.TranslatedPrograms

/-!
# Calls in a wider vocabulary

Any number of renamed programs run at once. If every renamed question means no more
than the question it renames, such a run is a run of the programs themselves: call by
call and question by question, in the same order and through the same states. Nothing
here refers to a particular protocol.
-/
namespace LdpProtocol.TranslatedRuns
open InteractivePrograms InterferedRuns ConcurrentCalls TranslatedPrograms

section
variable {C Q Q' : Type} {A : Q → Type} {A' : Q' → Type} {ε ε' α σ : Type}
  (f : Q → Q') (g : (q : Q) → A' (f q) → A q) (m : ε → ε')

/-- An entry of the log and the one it renames. -/
structure Matches (x : Entry Q' A' σ) (y : Entry Q A σ) : Prop where
  caller : x.caller = y.caller
  before : x.before = y.before
  event : Renamed f g x.event y.event

/-- The first configuration renames the second. -/
structure Mirrors (k' : Config C Q' A' ε' α σ) (k : Config C Q A ε α σ) : Prop where
  calls : k'.calls = k.calls.map fun x => (x.1, translate f g m x.2)
  state : k'.state = k.state
  log : List.Forall₂ (Matches f g) k'.log k.log

variable {f g m} {M : Meaning Q A σ} {M' : Meaning Q' A' σ} {run : C → Program Q A ε α} {s₀ : σ}
  {k' : Config C Q' A' ε' α σ} {k : Config C Q A ε α σ}

/-- Every entry of the renamed log renames one of the log. -/
theorem Mirrors.entry (h : Mirrors f g m k' k) {x : Entry Q' A' σ} (hx : x ∈ k'.log) :
    ∃ y ∈ k.log, Matches f g x y := by
  have hlog := h.log
  generalize k'.log = log' at hlog hx
  generalize k.log = log at hlog
  induction hlog with
  | nil => cases hx
  | @cons x' y log' log hmatches _ ih =>
      rcases List.mem_cons.mp hx with rfl | hx
      · exact ⟨y, List.mem_cons_self, hmatches⟩
      · obtain ⟨z, hz, hmatched⟩ := ih hx
        exact ⟨z, List.mem_cons_of_mem _ hz, hmatched⟩

theorem uses_translate_allowed {allowed : (q : Q) → A q → Prop}
    {allowed' : (q : Q') → A' q → Prop} {P : Q → Prop} {P' : Q' → Prop}
    (hallowed : ∀ q a, allowed' (f q) a → allowed q (g q a)) (hP : ∀ q, P q → P' (f q))
    {p : Program Q A ε α} (hp : p.Uses allowed P) :
    (translate f g m p).Uses allowed' P' := by
  induction p with
  | pure a => trivial
  | throw e => trivial
  | ask q next ih => exact ⟨hP q hp.1, fun a ha => ih (g q a) (hp.2 (g q a) (hallowed q a ha))⟩

/-- What a renamed program asks first is what the program asks first, renamed. -/
theorem translate_eq_ask {p : Program Q A ε α} {q' : Q'} {next' : A' q' → Program Q' A' ε' α}
    (h : translate f g m p = .ask q' next') (a' : A' q') :
    ∃ q next a, p = .ask q next ∧ (⟨q', a'⟩ : Event Q' A') = ⟨f q, a⟩ ∧
      next' a' = translate f g m (next (g q a)) := by
  cases p with
  | pure a => cases h
  | throw e => cases h
  | ask q next =>
      cases h
      exact ⟨q, next, a', rfl, rfl, rfl⟩

/-- A finished renamed call is a finished call, with its failure renamed. -/
theorem Mirrors.finished (h : Mirrors f g m k' k) {i : ℕ} {c : C} {r' : Except ε' α}
    (hi : k'.calls[i]? = some (c, done r')) :
    ∃ r, k.calls[i]? = some (c, done r) ∧ r' = r.mapError m := by
  rw [h.calls, List.getElem?_map, Option.map_eq_some_iff] at hi
  obtain ⟨⟨d, p⟩, hp, heq⟩ := hi
  obtain ⟨rfl, hdone⟩ := Prod.mk.inj heq
  cases p with
  | pure a =>
      refine ⟨.ok a, hp, ?_⟩
      cases r' with
      | ok b =>
          cases hdone
          rfl
      | error e => cases hdone
  | throw e =>
      refine ⟨.error e, hp, ?_⟩
      cases r' with
      | ok b => cases hdone
      | error e' =>
          cases hdone
          rfl
  | ask q next => cases r' <;> cases hdone

/-- A run of renamed programs renames a run of the programs. -/
theorem Moves.mirrored (hM : ∀ q s a t, M' (f q) s a t → M q s (g q a) t)
    (h : Moves M' (fun c => translate f g m (run c)) (idle s₀) k') :
    ∃ k, Moves M run (idle s₀) k ∧ Mirrors f g m k' k := by
  induction h with
  | refl => exact ⟨idle s₀, .refl, rfl, rfl, .nil⟩
  | @tail k₁' k₂' _ hmove ih =>
      obtain ⟨k, hk, hcalls, hstate, hlog⟩ := ih
      cases hmove with
      | start c =>
          refine ⟨_, hk.tail (.start k c), ?_, hstate, hlog⟩
          simp [hcalls]
      | @act i c q' next' a' t hi hm =>
          rw [hcalls, List.getElem?_map, Option.map_eq_some_iff] at hi
          obtain ⟨⟨d, p⟩, hp, heq⟩ := hi
          obtain ⟨rfl, hask⟩ := Prod.mk.inj heq
          obtain ⟨q, next, a, rfl, hevent, hnext⟩ := translate_eq_ask hask a'
          cases hevent
          rw [hstate] at hm
          refine ⟨_, hk.tail (.act hp (hM q _ a t hm)), ?_, rfl, ?_⟩
          · simp [hcalls, List.map_set, hnext]
          · exact List.rel_append hlog (.cons ⟨rfl, hstate, q, a, rfl, rfl⟩ .nil)

end
end LdpProtocol.TranslatedRuns
