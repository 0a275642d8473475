import LdpProtocol.ConcurrentCalls

/-!
# Programs in a wider vocabulary

A program over some questions is a program over more of them: every question is
renamed and its answer read back, and a failure is renamed too. What the program
asks, the paths through it and its runs carry over. Nothing here refers to a
particular protocol.
-/
namespace LdpProtocol.TranslatedPrograms
open InteractivePrograms InterferedRuns ConcurrentCalls

section
variable {Q Q' : Type} {A : Q → Type} {A' : Q' → Type} {ε ε' α β σ : Type}
  (f : Q → Q') (g : (q : Q) → A' (f q) → A q) (m : ε → ε')

def translate : Program Q A ε α → Program Q' A' ε' α
  | .pure a => .pure a
  | .throw e => .throw (m e)
  | .ask q next => .ask (f q) fun a => translate (next (g q a))

theorem translate_bind (p : Program Q A ε α) (h : α → Program Q A ε β) :
    translate f g m (p >>= h) = translate f g m p >>= fun a => translate f g m (h a) := by
  induction p with
  | pure a => rfl
  | throw e => rfl
  | ask q next ih =>
      rw [Program.ask_bind, translate, translate, Program.ask_bind]
      exact congrArg (Program.ask (f q)) (funext fun a => ih (g q a))

variable {f g m}

theorem uses_translate {P : Q → Prop} {P' : Q' → Prop} (hP : ∀ q, P q → P' (f q))
    {p : Program Q A ε α} (hp : p.Uses (fun _ _ => True) P) :
    (translate f g m p).Uses (fun _ _ => True) P' := by
  induction p with
  | pure a => trivial
  | throw e => trivial
  | ask q next ih => exact ⟨hP q hp.1, fun a _ => ih (g q a) (hp.2 (g q a) trivial)⟩

/-- All that a renamed program asks is renamed. -/
theorem uses_renamed {P' : Q' → Prop} (hP : ∀ q, P' (f q)) (p : Program Q A ε α) :
    (translate f g m p).Uses (fun _ _ => True) P' := by
  induction p with
  | pure a => trivial
  | throw e => trivial
  | ask q next ih => exact ⟨hP q, fun a _ => ih (g q a)⟩

/-- A renamed question with its answer, and the question it renames. -/
def Renamed (f : Q → Q') (g : (q : Q) → A' (f q) → A q) (x : Event Q' A') (y : Event Q A) : Prop :=
  ∃ q a, x = ⟨f q, a⟩ ∧ y = ⟨q, g q a⟩

/-- A path through the renamed program is a renamed path. -/
theorem along_translate {p : Program Q A ε α} {tr : List (Event Q' A')} {r : Program Q' A' ε' α}
    (h : Along (translate f g m p) tr r) :
    ∃ tr₀ p', Along p tr₀ p' ∧ r = translate f g m p' ∧ List.Forall₂ (Renamed f g) tr tr₀ := by
  induction p generalizing tr with
  | pure a =>
      obtain ⟨htr, hr⟩ := along_pure.mp h
      exact ⟨[], .pure a, .here _, hr, htr ▸ .nil⟩
  | throw e =>
      obtain ⟨htr, hr⟩ := along_throw.mp h
      exact ⟨[], .throw e, .here _, hr, htr ▸ .nil⟩
  | ask q next ih =>
      rcases along_ask.mp h with ⟨htr, hr⟩ | ⟨a, tr₁, htr, hrest⟩
      · exact ⟨[], .ask q next, .here _, hr, htr ▸ .nil⟩
      · obtain ⟨tr₀, p', hp', hr, hrenamed⟩ := ih (g q a) hrest
        exact ⟨⟨q, g q a⟩ :: tr₀, p', .ask hp', hr, htr ▸ .cons ⟨q, a, rfl, rfl⟩ hrenamed⟩

theorem run_translate {M : Meaning Q A σ} {M' : Meaning Q' A' σ} {E : σ → σ → Prop}
    (hM : ∀ q s a t, M q s a t → ∃ a', g q a' = a ∧ M' (f q) s a' t) {p : Program Q A ε α}
    {s t : σ} {tr : List (Event Q A)} {r : Except ε α} (h : Run M E p s tr t r) :
    ∃ tr', Run M' E (translate f g m p) s tr' t (r.mapError m) := by
  induction h with
  | pure a s => exact ⟨[], .pure a s⟩
  | throw e s => exact ⟨[], .throw (m e) s⟩
  | ask hm _ ih =>
      obtain ⟨a', ha', hm'⟩ := hM _ _ _ _ hm
      obtain ⟨tr', hrun⟩ := ih
      subst ha'
      exact ⟨_, .ask hm' hrun⟩
  | interfere hst _ ih =>
      obtain ⟨tr', hrun⟩ := ih
      exact ⟨tr', .interfere hst hrun⟩

end
end LdpProtocol.TranslatedPrograms
