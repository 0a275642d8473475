import LdpProtocol.ConcurrentCalls

/-!
# Leaving calls out of a run

Some calls are hidden, others watch. When no hidden call moves what the watching
ones see, the run without the hidden calls goes the same way for them: each has
asked the same questions and got the same answers. Calls that are neither may go
another way once they have written all that is seen. Nothing here refers to a
particular protocol.
-/
namespace LdpProtocol.UnseenCalls
open InteractivePrograms InteractivePrograms.Program InterferedRuns ConcurrentCalls Relation

section
variable {C Q : Type} {A : Q → Type} {ε α σ : Type}

/-- The question can be put to a state that looks the same, with the same answer. -/
def Mirrored (M : Meaning Q A σ) (Same : σ → σ → Prop) (q : Q) : Prop :=
  ∀ s a t s', M q s a t → Same s s' → ∃ t', M q s' a t' ∧ Same t t'

/-- The question moves nothing that is seen. -/
def Unseen (M : Meaning Q A σ) (Same : σ → σ → Prop) (q : Q) : Prop :=
  ∀ s a t s', M q s a t → Same s s' → Same t s'

/-- The program can be mirrored until it moves nothing more that is seen. -/
def Fades (M : Meaning Q A σ) (Same : σ → σ → Prop) : Program Q A ε α → Prop
  | .pure _ => True
  | .throw _ => True
  | .ask q next => (Mirrored M Same q ∧ ∀ a, Fades M Same (next a)) ∨
      (Unseen M Same q ∧ ∀ a, (next a).Uses (fun _ _ => True) (Unseen M Same))

variable {M : Meaning Q A σ} {Same : σ → σ → Prop}

theorem fades_of_unseen {p : Program Q A ε α}
    (hp : p.Uses (fun _ _ => True) (Unseen M Same)) : Fades M Same p := by
  cases p with
  | pure a => trivial
  | throw e => trivial
  | ask q next => exact .inr ⟨hp.1, fun a => hp.2 a trivial⟩

theorem Fades.bind_pure {β : Type} {p : Program Q A ε α} (g : α → β) (hp : Fades M Same p) :
    Fades M Same (p >>= fun a => .pure (g a)) := by
  induction p with
  | pure a => trivial
  | throw e => trivial
  | ask q next ih =>
      rcases hp with ⟨hq, hnext⟩ | ⟨hq, hnext⟩
      · exact .inl ⟨hq, fun a => ih a (hnext a)⟩
      · exact .inr ⟨hq, fun a => (hnext a).bind fun _ => trivial⟩

/-- How a call stands in the two runs. -/
def Matches (M : Meaning Q A σ) (Same : σ → σ → Prop) (watches : C → Prop)
    (x y : C × Program Q A ε α) : Prop :=
  y.1 = x.1 ∧
  ((y.2 = x.2 ∧ (watches x.1 → x.2.Uses (fun _ _ => True) (Mirrored M Same)) ∧
      (¬ watches x.1 → Fades M Same x.2)) ∨
    (¬ watches x.1 ∧ x.2.Uses (fun _ _ => True) (Unseen M Same)))

/-- The second configuration is the first without the hidden calls. -/
structure Thinned (M : Meaning Q A σ) (Same : σ → σ → Prop) (watches : C → Prop)
    (hidden : C → Bool) (k k' : Config C Q A ε α σ) : Prop where
  same : Same k.state k'.state
  unseen : ∀ x ∈ k.calls, hidden x.1 = true → x.2.Uses (fun _ _ => True) (Unseen M Same)
  calls : List.Forall₂ (Matches M Same watches) (k.calls.filter fun x => !hidden x.1) k'.calls

/-- What is asked of a call: a hidden one moves nothing that is seen, a watching one
can be mirrored throughout, and any other until it moves nothing more. -/
structure Behaves (M : Meaning Q A σ) (Same : σ → σ → Prop) (run : C → Program Q A ε α)
    (watches : C → Prop) (hidden : C → Bool) (c : C) : Prop where
  hides : hidden c = true → (run c).Uses (fun _ _ => True) (Unseen M Same)
  mirrors : hidden c = false → watches c → (run c).Uses (fun _ _ => True) (Mirrored M Same)
  fades : hidden c = false → ¬ watches c → Fades M Same (run c)

theorem forall₂_middle {β γ : Type} {R : β → γ → Prop} {l₁ l₂ : List β} {x : β} {l : List γ}
    (h : List.Forall₂ R (l₁ ++ x :: l₂) l) :
    ∃ m₁ y m₂, l = m₁ ++ y :: m₂ ∧ List.Forall₂ R l₁ m₁ ∧ R x y ∧ List.Forall₂ R l₂ m₂ := by
  induction l₁ generalizing l with
  | nil =>
      cases h with
      | cons hxy hrest => exact ⟨[], _, _, rfl, .nil, hxy, hrest⟩
  | cons z l₁ ih =>
      cases h with
      | cons hz hrest =>
          obtain ⟨m₁, y, m₂, hl, h₁, hxy, h₂⟩ := ih hrest
          exact ⟨_ :: m₁, y, m₂, by rw [hl]; rfl, .cons hz h₁, hxy, h₂⟩

theorem split_at {β : Type} {l : List β} {i : ℕ} {x : β} (h : l[i]? = some x) :
    ∃ l₁ l₂, l = l₁ ++ x :: l₂ ∧ l₁.length = i := by
  obtain ⟨hlt, hx⟩ := List.getElem?_eq_some_iff.mp h
  refine ⟨l.take i, l.drop (i + 1), ?_, by rw [List.length_take]; omega⟩
  rw [← hx, ← List.drop_eq_getElem_cons hlt, List.take_append_drop]

variable {run : C → Program Q A ε α} {watches : C → Prop} {hidden : C → Bool} {s₀ : σ}
  {k k' : Config C Q A ε α σ}

/-- The second run may stand still while the first moves nothing that is seen. -/
theorem Thinned.stay (h : Thinned M Same watches hidden k k') {l₁ l₂ : List (C × Program Q A ε α)}
    {c : C} {q : Q} {next : A q → Program Q A ε α} {a : A q} {t : σ}
    (hcalls : k.calls = l₁ ++ (c, .ask q next) :: l₂) (hm : M q k.state a t)
    (hq : Unseen M Same q) (hnext : (next a).Uses (fun _ _ => True) (Unseen M Same))
    (hc : hidden c = false → ¬ watches c) (log : List (Entry Q A σ)) :
    Thinned M Same watches hidden ⟨log, t, l₁ ++ (c, next a) :: l₂⟩ k' where
  same := hq _ _ _ _ hm h.same
  unseen := by
    intro x hx hhidden
    rcases List.mem_append.mp hx with hx | hx
    · exact h.unseen x (by rw [hcalls]; simp [hx]) hhidden
    · rcases List.mem_cons.mp hx with hx | hx
      · rw [hx]
        exact hnext
      · exact h.unseen x (by rw [hcalls]; simp [hx]) hhidden
  calls := by
    have hmatched := h.calls
    rw [hcalls] at hmatched
    cases hhidden : hidden c with
    | true => simpa [List.filter_append, List.filter_cons, hhidden] using hmatched
    | false =>
        simp only [List.filter_append, List.filter_cons, hhidden, Bool.not_false, if_true]
          at hmatched ⊢
        obtain ⟨m₁, y, m₂, hm', h₁, hxy, h₂⟩ := forall₂_middle hmatched
        rw [hm']
        exact List.rel_append h₁ (.cons ⟨hxy.1, .inr ⟨hc hhidden, hnext⟩⟩ h₂)

/-- The second run asks the same, and gets the same answer. -/
theorem Thinned.mirror (h : Thinned M Same watches hidden k k') {l₁ l₂ : List (C × Program Q A ε α)}
    {c : C} {q : Q} {next : A q → Program Q A ε α} {a : A q} {t : σ}
    (hcalls : k.calls = l₁ ++ (c, .ask q next) :: l₂) (hm : M q k.state a t)
    (hc : hidden c = false) {m₁ m₂ : List (C × Program Q A ε α)}
    (hcalls' : k'.calls = m₁ ++ (c, .ask q next) :: m₂)
    (h₁ : List.Forall₂ (Matches M Same watches) (l₁.filter fun x => !hidden x.1) m₁)
    (h₂ : List.Forall₂ (Matches M Same watches) (l₂.filter fun x => !hidden x.1) m₂)
    (hq : Mirrored M Same q)
    (hwatches : watches c → (next a).Uses (fun _ _ => True) (Mirrored M Same))
    (hfades : ¬ watches c → Fades M Same (next a)) (log : List (Entry Q A σ)) :
    ∃ k'', Move M run k' k'' ∧
      Thinned M Same watches hidden ⟨log, t, l₁ ++ (c, next a) :: l₂⟩ k'' := by
  obtain ⟨t', hm', hsame⟩ := hq _ _ _ _ hm h.same
  have hat : k'.calls[m₁.length]? = some (c, .ask q next) := by rw [hcalls']; simp
  refine ⟨_, .act hat hm', hsame, ?_, ?_⟩
  · intro x hx hhidden
    rcases List.mem_append.mp hx with hx | hx
    · exact h.unseen x (by rw [hcalls]; simp [hx]) hhidden
    · rcases List.mem_cons.mp hx with hx | hx
      · rw [hx, hc] at hhidden
        cases hhidden
      · exact h.unseen x (by rw [hcalls]; simp [hx]) hhidden
  · have hset : k'.calls.set m₁.length (c, next a) = m₁ ++ (c, next a) :: m₂ := by
      rw [hcalls', List.set_append_right _ _ le_rfl, Nat.sub_self, List.set_cons_zero]
    simp only [List.filter_append, List.filter_cons, hc, Bool.not_false, if_true]
    rw [hset]
    exact List.rel_append h₁ (.cons ⟨rfl, .inl ⟨rfl, hwatches, hfades⟩⟩ h₂)

theorem Thinned.act (h : Thinned M Same watches hidden k k') {i : ℕ} {c : C} {q : Q}
    {next : A q → Program Q A ε α} {a : A q} {t : σ} (hi : k.calls[i]? = some (c, .ask q next))
    (hm : M q k.state a t) (log : List (Entry Q A σ)) :
    ∃ k'', ReflTransGen (Move M run) k' k'' ∧
      Thinned M Same watches hidden ⟨log, t, k.calls.set i (c, next a)⟩ k'' := by
  obtain ⟨l₁, l₂, hcalls, hlen⟩ := split_at hi
  have hset : k.calls.set i (c, next a) = l₁ ++ (c, next a) :: l₂ := by
    rw [hcalls, List.set_append_right _ _ hlen.le, hlen, Nat.sub_self, List.set_cons_zero]
  rw [hset]
  cases hhidden : hidden c with
  | true =>
      have hunseen := h.unseen (c, .ask q next) (by rw [hcalls]; simp) hhidden
      refine ⟨k', .refl, h.stay hcalls hm hunseen.1 (hunseen.2 a trivial) ?_ log⟩
      intro hvisible
      rw [hhidden] at hvisible
      cases hvisible
  | false =>
      have hmatched := h.calls
      rw [hcalls] at hmatched
      simp only [List.filter_append, List.filter_cons, hhidden, Bool.not_false, if_true]
        at hmatched
      obtain ⟨m₁, y, m₂, hcalls', h₁, hxy, h₂⟩ := forall₂_middle hmatched
      obtain ⟨d, p⟩ := y
      obtain ⟨hd, ⟨hp, hwatches, hfades⟩ | ⟨hidle, hunseen⟩⟩ := hxy
      · cases hd
        cases hp
        by_cases hw : watches c
        · have huses := hwatches hw
          obtain ⟨k'', hmove, hthin⟩ := h.mirror hcalls hm hhidden hcalls' h₁ h₂ huses.1
            (fun _ => huses.2 a trivial) (fun hnot => (hnot hw).elim) log
          exact ⟨k'', .single hmove, hthin⟩
        · rcases hfades hw with ⟨hq, hnext⟩ | ⟨hq, hnext⟩
          · obtain ⟨k'', hmove, hthin⟩ := h.mirror hcalls hm hhidden hcalls' h₁ h₂ hq
              (fun hwatch => (hw hwatch).elim) (fun _ => hnext a) log
            exact ⟨k'', .single hmove, hthin⟩
          · exact ⟨k', .refl, h.stay hcalls hm hq (hnext a) (fun _ => hw) log⟩
      · exact ⟨k', .refl, h.stay hcalls hm hunseen.1 (hunseen.2 a trivial) (fun _ => hidle) log⟩

theorem Thinned.start (h : Thinned M Same watches hidden k k') {c : C}
    (hc : Behaves M Same run watches hidden c) :
    ∃ k'', ReflTransGen (Move M run) k' k'' ∧
      Thinned M Same watches hidden { k with calls := k.calls ++ [(c, run c)] } k'' := by
  have hunseen : ∀ x ∈ k.calls ++ [(c, run c)], hidden x.1 = true →
      x.2.Uses (fun _ _ => True) (Unseen M Same) := by
    intro x hx hhidden
    rcases List.mem_append.mp hx with hx | hx
    · exact h.unseen x hx hhidden
    · rw [List.mem_singleton.mp hx] at hhidden ⊢
      exact hc.hides hhidden
  cases hhidden : hidden c with
  | true =>
      refine ⟨k', .refl, h.same, hunseen, ?_⟩
      simpa [List.filter_append, hhidden] using h.calls
  | false =>
      refine ⟨_, .single (.start k' c), h.same, hunseen, ?_⟩
      simp only [List.filter_append, List.filter_cons, hhidden, Bool.not_false, if_true,
        List.filter_nil]
      exact List.rel_append h.calls
        (.cons ⟨rfl, .inl ⟨rfl, hc.mirrors hhidden, hc.fades hhidden⟩⟩ .nil)

/-- The calls of the second run are the first one's, without the hidden ones. -/
theorem Thinned.names (h : Thinned M Same watches hidden k k') :
    k'.calls.map Prod.fst = (k.calls.map Prod.fst).filter fun c => !hidden c := by
  rw [List.filter_map]
  have hmatched := h.calls
  simp only [Function.comp_def]
  generalize k.calls.filter (fun x => !hidden x.1) = l, k'.calls = l' at hmatched
  induction hmatched with
  | nil => rfl
  | cons hxy _ ih => rw [List.map_cons, List.map_cons, hxy.1, ih]

/-- Watching calls stand in the second run as they stand in the first. -/
theorem Thinned.watching [DecidablePred watches] (h : Thinned M Same watches hidden k k')
    (hvisible : ∀ c, watches c → hidden c = false) :
    (k'.calls.filter fun x => decide (watches x.1)) =
      k.calls.filter fun x => decide (watches x.1) := by
  have hboth : (k.calls.filter fun x => decide (watches x.1)) =
      (k.calls.filter fun x => !hidden x.1).filter fun x => decide (watches x.1) := by
    rw [List.filter_filter]
    apply List.filter_congr
    intro x _
    by_cases hw : watches x.1
    · simp [hw, hvisible x.1 hw]
    · simp [hw]
  rw [hboth]
  have hmatched := h.calls
  generalize k.calls.filter (fun x => !hidden x.1) = l, k'.calls = l' at hmatched
  induction hmatched with
  | nil => rfl
  | @cons x y l l' hxy _ ih =>
      obtain ⟨hname, ⟨hprogram, _⟩ | ⟨hidle, _⟩⟩ := hxy
      · have hsame : y = x := Prod.ext hname hprogram
        rw [hsame, List.filter_cons, List.filter_cons, ih]
      · rw [List.filter_cons_of_neg (by simpa [hname] using hidle),
          List.filter_cons_of_neg (by simpa using hidle), ih]

/-- Every run has a counterpart without its hidden calls. -/
theorem thinned (h : Moves M run (idle s₀) k) (hsame : Same s₀ s₀)
    (hc : ∀ c ∈ k.calls.map Prod.fst, Behaves M Same run watches hidden c) :
    ∃ k', Moves M run (idle s₀) k' ∧ Thinned M Same watches hidden k k' := by
  induction h with
  | refl => exact ⟨idle s₀, .refl, hsame, by simp [idle], .nil⟩
  | @tail k₁ k₂ _ hmove ih =>
      cases hmove with
      | start c =>
          obtain ⟨k', hmoves, hthin⟩ := ih fun d hd =>
            hc d (by rw [List.map_append]; exact List.mem_append_left _ hd)
          obtain ⟨k'', hmore, hthin'⟩ := hthin.start (hc c (by simp))
          exact ⟨k'', hmoves.trans hmore, hthin'⟩
      | @act i c q next a t hi hm =>
          have hnames : (k₁.calls.set i (c, next a)).map Prod.fst = k₁.calls.map Prod.fst := by
            rw [List.map_set]
            apply set_eq_of_getElem?
            rw [List.getElem?_map, hi]
            rfl
          rw [hnames] at hc
          obtain ⟨k', hmoves, hthin⟩ := ih hc
          obtain ⟨k'', hmore, hthin'⟩ := hthin.act hi hm (k₁.log ++ [⟨i, k₁.state, ⟨q, a⟩⟩])
          exact ⟨k'', hmoves.trans hmore, hthin'⟩

end

end LdpProtocol.UnseenCalls
