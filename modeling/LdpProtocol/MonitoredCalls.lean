import LdpProtocol.TranslatedPrograms

/-!
# Calls under a monitor

A monitor watches one call. It moves on each question and its answer, and says
which it allows; some answers need not be expected. A program that obeys it can be
put together from parts that do. When any number of calls run, each has a monitor
of its own, and what all of them keep true together holds in every configuration.
Nothing here refers to a particular protocol.
-/
namespace LdpProtocol.MonitoredCalls
open InteractivePrograms InterferedRuns ConcurrentCalls TranslatedPrograms

structure Monitor (Q : Type) (A : Q → Type) (S : Type) where
  after : S → Event Q A → S
  allows : S → Event Q A → Prop
  expects : Event Q A → Prop

section Programs
variable {Q : Type} {A : Q → Type} {ε α β S : Type} {m : Monitor Q A S}

/-- Whatever the program comes to ask is allowed, and `post` holds at its end. -/
def Monitor.Obeys (m : Monitor Q A S) :
    Program Q A ε α → S → (S → Except ε α → Prop) → Prop
  | .pure a, s, post => post s (.ok a)
  | .throw e, s, post => post s (.error e)
  | .ask q next, s, post => ∀ a, m.expects ⟨q, a⟩ →
      m.allows s ⟨q, a⟩ ∧ m.Obeys (next a) (m.after s ⟨q, a⟩) post

theorem Monitor.Obeys.imp {p : Program Q A ε α} {s : S} {post post' : S → Except ε α → Prop}
    (h : m.Obeys p s post) (himp : ∀ s r, post s r → post' s r) : m.Obeys p s post' := by
  induction p generalizing s with
  | pure a => exact himp _ _ h
  | throw e => exact himp _ _ h
  | ask q next ih =>
      intro a ha
      exact ⟨(h a ha).1, ih a (h a ha).2⟩

/-- The rule of sequence. -/
theorem Monitor.Obeys.bind {p : Program Q A ε α} {f : α → Program Q A ε β} {s : S}
    {mid : S → Except ε α → Prop} {post : S → Except ε β → Prop} (hp : m.Obeys p s mid)
    (hf : ∀ s a, mid s (.ok a) → m.Obeys (f a) s post)
    (he : ∀ s e, mid s (.error e) → post s (.error e)) : m.Obeys (p >>= f) s post := by
  induction p generalizing s with
  | pure a => exact hf s a hp
  | throw e => exact he s e hp
  | ask q next ih =>
      rw [Program.ask_bind]
      intro a ha
      exact ⟨(hp a ha).1, ih a (hp a ha).2⟩

/-- The rule of sequence after a program that does not fail. -/
theorem Monitor.Obeys.bind_ok {p : Program Q A ε α} {f : α → Program Q A ε β} {s : S}
    {mid : S → α → Prop} {post : S → Except ε β → Prop}
    (hp : m.Obeys p s fun s r => ∃ a, r = .ok a ∧ mid s a)
    (hf : ∀ s a, mid s a → m.Obeys (f a) s post) : m.Obeys (p >>= f) s post := by
  apply hp.bind
  · intro s a hmid
    obtain ⟨_, hr, hmid⟩ := hmid
    cases hr
    exact hf s a hmid
  · intro s e hfailed
    obtain ⟨_, hr, _⟩ := hfailed
    cases hr

/-- What holds at the end of an obedient program holds after every finished path on
which only expected answers came. -/
theorem Monitor.Obeys.along {p : Program Q A ε α} {s : S} {post : S → Except ε α → Prop}
    (h : m.Obeys p s post) {tr : List (Event Q A)} {r : Except ε α} (hp : Along p tr (done r))
    (hexpects : ∀ ev ∈ tr, m.expects ev) : post (tr.foldl m.after s) r := by
  induction p generalizing s tr with
  | pure a =>
      obtain ⟨rfl, rfl⟩ := along_pure_done.mp hp
      exact h
  | throw e =>
      obtain ⟨rfl, rfl⟩ := along_throw_done.mp hp
      exact h
  | ask q next ih =>
      obtain ⟨a, rest, rfl, hrest⟩ := along_ask_done.mp hp
      have hfirst := hexpects ⟨q, a⟩ List.mem_cons_self
      exact ih a (h a hfirst).2 hrest fun ev hev => hexpects ev (List.mem_cons_of_mem _ hev)

/-- A renamed program obeys where the monitors agree on the renamed questions. -/
theorem Monitor.Obeys.translate {Q' : Type} {A' : Q' → Type} {ε' : Type}
    {m' : Monitor Q' A' S} {f : Q → Q'} {g : (q : Q) → A' (f q) → A q} {n : ε → ε'}
    (hexpects : ∀ q a, m'.expects ⟨f q, a⟩ → m.expects ⟨q, g q a⟩)
    (hallows : ∀ s q a, m.allows s ⟨q, g q a⟩ → m'.allows s ⟨f q, a⟩)
    (hafter : ∀ s q a, m'.after s ⟨f q, a⟩ = m.after s ⟨q, g q a⟩)
    {p : Program Q A ε α} {s : S} {post : S → Except ε α → Prop} (h : m.Obeys p s post) :
    m'.Obeys (translate f g n p) s fun s r => ∃ r₀, post s r₀ ∧ r = r₀.mapError n := by
  induction p generalizing s with
  | pure a => exact ⟨_, h, rfl⟩
  | throw e => exact ⟨_, h, rfl⟩
  | ask q next ih =>
      intro a ha
      obtain ⟨hallowed, hrest⟩ := h (g q a) (hexpects q a ha)
      refine ⟨hallows s q a hallowed, ?_⟩
      rw [hafter]
      exact ih _ hrest

/-- A program whose questions are all allowed obeys, whatever its end. -/
theorem Monitor.Obeys.of_uses {P : Q → Prop} {p : Program Q A ε α}
    (hp : p.Uses (fun _ _ => True) P) (hallows : ∀ s q a, P q → m.allows s ⟨q, a⟩) (s : S) :
    m.Obeys p s fun _ _ => True := by
  induction p generalizing s with
  | pure a => trivial
  | throw e => trivial
  | ask q next ih =>
      intro a _
      exact ⟨hallows s q a hp.1, ih a (hp.2 a trivial) _⟩

/-- The outcome of an attempt is the end of the program. -/
theorem Monitor.Obeys.attempt {δ : Type} {p : Program Q A ε α} {s : S}
    {post : S → Except δ (Except ε α) → Prop} (h : m.Obeys p s fun s r => post s (.ok r)) :
    m.Obeys (p.attempt : Program Q A δ (Except ε α)) s post := by
  induction p generalizing s with
  | pure a => exact h
  | throw e => exact h
  | ask q next ih =>
      intro a ha
      exact ⟨(h a ha).1, ih a (h a ha).2⟩

end Programs

section Calls
variable {C Q : Type} {A : Q → Type} {ε α σ S : Type} {m : Monitor Q A S} {M : Meaning Q A σ}
  {run : C → Program Q A ε α} {s₀ : σ} {k : Config C Q A ε α σ} {init : S} {fin : S → Prop}
  {G : List (Entry Q A σ) → σ → (ℕ → S) → Prop}

/-- What every allowed question of every call preserves holds throughout, and each
call goes on to obey its monitor. -/
theorem Moves.monitored (hrun : ∀ c, m.Obeys (run c) init fun s _ => fin s)
    (hexpects : ∀ q s a t, M q s a t → m.expects ⟨q, a⟩) (hstart : G [] s₀ fun _ => init)
    (hstep : ∀ log s monitors i q a t, G log s monitors → M q s a t →
      m.allows (monitors i) ⟨q, a⟩ → G (log ++ [⟨i, s, ⟨q, a⟩⟩]) t
        (Function.update monitors i (m.after (monitors i) ⟨q, a⟩)))
    (h : Moves M run (idle s₀) k) :
    ∃ monitors, G k.log k.state monitors ∧ (∀ i, k.calls.length ≤ i → monitors i = init) ∧
      ∀ (i : ℕ) c p, k.calls[i]? = some (c, p) → m.Obeys p (monitors i) fun s _ => fin s := by
  induction h with
  | refl => exact ⟨fun _ => init, hstart, fun _ _ => rfl, fun i c p hi => by cases hi⟩
  | @tail k₁ k₂ _ hmove ih =>
      obtain ⟨monitors, hG, hnone, hcalls⟩ := ih
      cases hmove with
      | start c =>
          refine ⟨monitors, hG, ?_, ?_⟩
          · intro i hi
            rw [List.length_append] at hi
            exact hnone i (by omega)
          · intro i d p hi
            by_cases hlt : i < k₁.calls.length
            · rw [List.getElem?_append_left hlt] at hi
              exact hcalls i d p hi
            · have hbound := (List.getElem?_eq_some_iff.mp hi).1
              rw [List.length_append, List.length_singleton] at hbound
              have hlast : i = k₁.calls.length := by omega
              subst hlast
              rw [List.getElem?_concat_length] at hi
              cases hi
              rw [hnone _ le_rfl]
              exact hrun c
      | @act j c q next a t hj hm =>
          obtain ⟨hallowed, hrest⟩ := hcalls j c _ hj a (hexpects q _ a t hm)
          refine ⟨_, hstep _ _ _ j q a t hG hm hallowed, ?_, ?_⟩
          · intro i hi
            rw [List.length_set] at hi
            have hlt := (List.getElem?_eq_some_iff.mp hj).1
            rw [Function.update_of_ne (by omega)]
            exact hnone i hi
          · intro i d p hi
            by_cases hij : i = j
            · subst hij
              rw [List.getElem?_set_self (List.getElem?_eq_some_iff.mp hj).1] at hi
              cases hi
              rw [Function.update_self]
              exact hrest
            · rw [List.getElem?_set_ne (Ne.symm hij)] at hi
              rw [Function.update_of_ne hij]
              exact hcalls i d p hi

/-- Once every call has ended, so has every monitor. -/
theorem ended_of_obeys {monitors : ℕ → S}
    (hnone : ∀ i, k.calls.length ≤ i → monitors i = init)
    (hcalls : ∀ (i : ℕ) c p, k.calls[i]? = some (c, p) → m.Obeys p (monitors i) fun s _ => fin s)
    (hdone : ∀ x ∈ k.calls, ∃ r, x.2 = done r) (hinit : fin init) (i : ℕ) :
    fin (monitors i) := by
  by_cases hlt : i < k.calls.length
  · obtain ⟨r, hr⟩ := hdone _ (List.getElem_mem hlt)
    have hat : k.calls[i]? = some (k.calls[i].1, k.calls[i].2) := List.getElem?_eq_getElem hlt
    have hobeys := hcalls i _ _ hat
    rw [hr] at hobeys
    cases r with
    | ok a => exact hobeys
    | error e => exact hobeys
  · rw [hnone i (by omega)]
    exact hinit

end Calls
end LdpProtocol.MonitoredCalls
