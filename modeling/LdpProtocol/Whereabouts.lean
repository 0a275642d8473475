import Mathlib.Tactic.Basic

/-!
# Things that are in one place at a time

Things are held as long as they are in a place that counts. They arrive new in a
place that does not, are moved from place to place, and leave. Nothing here refers
to a particular protocol.
-/
namespace LdpProtocol.Whereabouts

variable {P X : Type} {counts : P → Prop} {at_ at' : P → X → Prop}
  {held held' known known' : X → Prop} {p₀ : P} {x₀ : X}

/-- Nothing is in two places; what is held is in a place that counts. -/
structure Placed (counts : P → Prop) (at_ : P → X → Prop) (held known : X → Prop) : Prop where
  unique : ∀ {p q x}, at_ p x → at_ q x → p = q
  held : ∀ x, held x ↔ ∃ p, counts p ∧ at_ p x
  known : ∀ {p x}, at_ p x → known x

theorem Placed.not_held (h : Placed counts at_ held known) (hat : at_ p₀ x₀) (hp : ¬ counts p₀) :
    ¬ held x₀ := by
  intro hheld
  obtain ⟨p, hcounts, hp'⟩ := (h.held x₀).mp hheld
  rw [h.unique hp' hat] at hcounts
  exact hp hcounts

theorem Placed.congr (h : Placed counts at_ held known) (hat : ∀ p x, at' p x ↔ at_ p x)
    (hheld : ∀ x, held' x ↔ held x) (hknown : ∀ x, known x → known' x) :
    Placed counts at' held' known' where
  unique h₁ h₂ := h.unique ((hat _ _).mp h₁) ((hat _ _).mp h₂)
  held x := by simp only [hheld, hat, h.held]
  known h₁ := hknown _ (h.known ((hat _ _).mp h₁))

/-- Something new arrives in a place that does not count. -/
theorem Placed.arrive (h : Placed counts at_ held known) (p₀ : P) (hnew : ¬ known x₀)
    (hp : ¬ counts p₀) (hat : ∀ p x, at' p x ↔ at_ p x ∨ (p = p₀ ∧ x = x₀))
    (hheld : ∀ x, held' x ↔ held x) (hknown : ∀ x, known' x ↔ known x ∨ x = x₀) :
    Placed counts at' held' known' := by
  constructor
  · intro p q x h₁ h₂
    rcases (hat p x).mp h₁ with h₁ | ⟨rfl, rfl⟩
    · rcases (hat q x).mp h₂ with h₂ | ⟨rfl, rfl⟩
      · exact h.unique h₁ h₂
      · exact (hnew (h.known h₁)).elim
    · rcases (hat q x).mp h₂ with h₂ | ⟨rfl, _⟩
      · exact (hnew (h.known h₂)).elim
      · rfl
  · intro x
    rw [hheld, h.held]
    constructor
    · rintro ⟨p, hcounts, hin⟩
      exact ⟨p, hcounts, (hat p x).mpr (.inl hin)⟩
    · rintro ⟨p, hcounts, hin⟩
      rcases (hat p x).mp hin with hin | ⟨rfl, rfl⟩
      · exact ⟨p, hcounts, hin⟩
      · exact (hp hcounts).elim
  · intro p x hin
    rcases (hat p x).mp hin with hin | ⟨_, rfl⟩
    · exact (hknown x).mpr (.inl (h.known hin))
    · exact (hknown x).mpr (.inr rfl)

/-- Something leaves for good. -/
theorem Placed.leave (h : Placed counts at_ held known) (hfrom : at_ p₀ x₀)
    (hleft : ∀ x, at' p₀ x ↔ at_ p₀ x ∧ x ≠ x₀) (hother : ∀ p, p ≠ p₀ → ∀ x, at' p x ↔ at_ p x)
    (hheld : ∀ x, held' x ↔ held x ∧ x ≠ x₀) : Placed counts at' held' known := by
  have hsub : ∀ p x, at' p x ↔ at_ p x ∧ x ≠ x₀ := by
    intro p x
    by_cases hp : p = p₀
    · rw [hp]
      exact hleft x
    · rw [hother p hp]
      constructor
      · intro hin
        refine ⟨hin, ?_⟩
        rintro rfl
        exact hp (h.unique hin hfrom)
      · exact And.left
  constructor
  · intro p q x h₁ h₂
    exact h.unique ((hsub p x).mp h₁).1 ((hsub q x).mp h₂).1
  · intro x
    simp only [hheld, hsub, h.held, ← and_assoc, exists_and_right]
  · intro p x hin
    exact h.known ((hsub p x).mp hin).1

/-- Something is moved to another place. -/
theorem Placed.relocate (h : Placed counts at_ held known) (p₁ : P) (hfrom : at_ p₀ x₀)
    (hne : p₁ ≠ p₀)
    (hleft : ∀ x, at' p₀ x ↔ at_ p₀ x ∧ x ≠ x₀) (hto : ∀ x, at' p₁ x ↔ at_ p₁ x ∨ x = x₀)
    (hother : ∀ p, p ≠ p₀ → p ≠ p₁ → ∀ x, at' p x ↔ at_ p x)
    (hheld : ∀ x, held' x ↔ (held x ∧ x ≠ x₀) ∨ (x = x₀ ∧ counts p₁)) :
    Placed counts at' held' known := by
  have hmoved : ∀ p x, at' p x ↔ (at_ p x ∧ x ≠ x₀) ∨ (p = p₁ ∧ x = x₀) := by
    intro p x
    have helse : at_ p x → p ≠ p₀ → x ≠ x₀ := by
      rintro hin hp rfl
      exact hp (h.unique hin hfrom)
    by_cases hp : p = p₀
    · subst hp
      rw [hleft]
      grind
    · by_cases hp₁ : p = p₁
      · subst hp₁
        rw [hto]
        grind
      · rw [hother p hp hp₁]
        grind
  constructor
  · intro p q x h₁ h₂
    rcases (hmoved p x).mp h₁ with ⟨h₁, hx⟩ | ⟨hp, hx⟩
    · rcases (hmoved q x).mp h₂ with ⟨h₂, _⟩ | ⟨_, hx'⟩
      · exact h.unique h₁ h₂
      · exact (hx hx').elim
    · rcases (hmoved q x).mp h₂ with ⟨_, hx'⟩ | ⟨hq, _⟩
      · exact (hx' hx).elim
      · rw [hp, hq]
  · intro x
    rw [hheld, h.held]
    constructor
    · rintro (⟨⟨p, hcounts, hin⟩, hx⟩ | ⟨hx, hcounts⟩)
      · exact ⟨p, hcounts, (hmoved p x).mpr (.inl ⟨hin, hx⟩)⟩
      · exact ⟨p₁, hcounts, (hmoved p₁ x).mpr (.inr ⟨rfl, hx⟩)⟩
    · rintro ⟨p, hcounts, hin⟩
      rcases (hmoved p x).mp hin with ⟨hin, hx⟩ | ⟨rfl, hx⟩
      · exact .inl ⟨⟨p, hcounts, hin⟩, hx⟩
      · exact .inr ⟨hx, hcounts⟩
  · intro p x hin
    rcases (hmoved p x).mp hin with ⟨hin, _⟩ | ⟨_, hx⟩
    · exact h.known hin
    · rw [hx]
      exact h.known hfrom

/-- Between two places that count, what is held stays the same. -/
theorem Placed.relocate_held (h : Placed counts at_ held known) (p₁ : P) (hfrom : at_ p₀ x₀)
    (hne : p₁ ≠ p₀)
    (hleft : ∀ x, at' p₀ x ↔ at_ p₀ x ∧ x ≠ x₀) (hto : ∀ x, at' p₁ x ↔ at_ p₁ x ∨ x = x₀)
    (hother : ∀ p, p ≠ p₀ → p ≠ p₁ → ∀ x, at' p x ↔ at_ p x)
    (hcounts₀ : counts p₀) (hcounts₁ : counts p₁) : Placed counts at' held known := by
  have hx₀ : held x₀ := (h.held x₀).mpr ⟨p₀, hcounts₀, hfrom⟩
  apply h.relocate p₁ hfrom hne hleft hto hother
  intro x
  by_cases hx : x = x₀
  · simp [hx, hx₀, hcounts₁]
  · simp [hx]

end LdpProtocol.Whereabouts
