import LdpProtocol.ConcurrentCalls

/-!
# Concurrent runs in a serial order

What any number of concurrent calls did can be played again call by call, in a
given order, if every pair of events that changes places commutes. The states may
then differ in what no question can tell apart. Each call gets a moment of the
run as its point; the order of the points keeps calls apart that did not overlap.
Nothing here refers to a particular protocol.
-/
namespace LdpProtocol.SerialRuns
open InteractivePrograms InteractivePrograms.Program InterferedRuns ConcurrentCalls

section Events
variable {Q : Type} {A : Q → Type} {ε α σ : Type}

/-- The events lead from the first state to the last. -/
inductive Plays (M : Meaning Q A σ) : σ → List (Event Q A) → σ → Prop
  | nil (s : σ) : Plays M s [] s
  | cons {s t u : σ} {ev : Event Q A} {tr : List (Event Q A)} :
      M ev.1 s ev.2 t → Plays M t tr u → Plays M s (ev :: tr) u

/-- States that no sequence of questions can tell apart. -/
structure Indistinct (M : Meaning Q A σ) (R : σ → σ → Prop) : Prop where
  refl : ∀ s, R s s
  trans : ∀ s t u, R s t → R t u → R s u
  step : ∀ q s a t s', M q s a t → R s s' → ∃ t', M q s' a t' ∧ R t t'

/-- The first event may be played after the second instead. -/
def Passes (M : Meaning Q A σ) (R : σ → σ → Prop) (x y : Event Q A) : Prop :=
  ∀ s u, Plays M s [x, y] u → ∃ u', Plays M s [y, x] u' ∧ R u u'

variable {M : Meaning Q A σ} {R : σ → σ → Prop} {s t u : σ} {tr tr' : List (Event Q A)}

@[simp] theorem plays_nil : Plays M s [] u ↔ u = s := by
  constructor
  · intro h
    cases h
    rfl
  · intro h
    rw [h]
    exact .nil s

@[simp] theorem plays_cons {ev : Event Q A} :
    Plays M s (ev :: tr) u ↔ ∃ t, M ev.1 s ev.2 t ∧ Plays M t tr u := by
  constructor
  · intro h
    cases h with
    | cons hm h => exact ⟨_, hm, h⟩
  · intro h
    obtain ⟨t, hm, h⟩ := h
    exact .cons hm h

theorem plays_append : Plays M s (tr ++ tr') u ↔ ∃ t, Plays M s tr t ∧ Plays M t tr' u := by
  induction tr generalizing s with
  | nil => simp
  | cons ev tr ih =>
      rw [List.cons_append, plays_cons]
      simp only [ih, plays_cons]
      constructor
      · intro h
        obtain ⟨t, hm, v, htr, htr'⟩ := h
        exact ⟨v, ⟨t, hm, htr⟩, htr'⟩
      · intro h
        obtain ⟨v, ⟨t, hm, htr⟩, htr'⟩ := h
        exact ⟨t, hm, v, htr, htr'⟩

/-- A path that the surroundings allow is a run of the program on its own. -/
theorem Plays.run {p : Program Q A ε α} {r : Except ε α} (h : Plays M s tr u)
    (hp : Along p tr (done r)) : Run M Quiet p s tr u r := by
  induction h generalizing p with
  | nil s =>
      cases hp
      cases r with
      | ok a => exact .pure a s
      | error e => exact .throw e s
  | cons hm _ ih =>
      cases hp with
      | ask hrest => exact .ask hm (ih hrest)

theorem Plays.like (hR : Indistinct M R) (h : Plays M s tr u) {s' : σ} (hs : R s s') :
    ∃ u', Plays M s' tr u' ∧ R u u' := by
  induction h generalizing s' with
  | nil s => exact ⟨s', .nil s', hs⟩
  | cons hm _ ih =>
      obtain ⟨t', hm', ht⟩ := hR.step _ _ _ _ _ hm hs
      obtain ⟨u', hrest, hu⟩ := ih ht
      exact ⟨u', .cons hm' hrest, hu⟩

/-- An event may be played after a whole block that it passes. -/
theorem Plays.delay (hR : Indistinct M R) {x : Event Q A} {block rest : List (Event Q A)}
    (hx : ∀ y ∈ block, Passes M R x y) (h : Plays M s (x :: (block ++ rest)) u) :
    ∃ u', Plays M s (block ++ x :: rest) u' ∧ R u u' := by
  induction block generalizing s u with
  | nil => exact ⟨u, h, hR.refl u⟩
  | cons y block ih =>
      have hsplit : x :: ((y :: block) ++ rest) = [x, y] ++ (block ++ rest) := rfl
      rw [hsplit, plays_append] at h
      obtain ⟨t, hpair, hrest⟩ := h
      obtain ⟨t', hswapped, ht⟩ := hx y List.mem_cons_self s t hpair
      obtain ⟨u₁, hrest₁, hu₁⟩ := hrest.like hR ht
      obtain ⟨v, hy, hlast⟩ := plays_cons.mp hswapped
      obtain ⟨w, hx', hw⟩ := plays_cons.mp hlast
      rw [plays_nil.mp hw] at hrest₁
      have htail : Plays M v (x :: (block ++ rest)) u₁ := .cons hx' hrest₁
      obtain ⟨u', hu', hlike⟩ := ih (fun z hz => hx z (List.mem_cons_of_mem _ hz)) htail
      exact ⟨u', .cons hy hu', hR.trans _ _ _ hu₁ hlike⟩

end Events

section Calls
variable {C Q : Type} {A : Q → Type} {ε α σ : Type}

/-- Calls handled one after the other, each with its questions and its outcome. -/
inductive Serial (M : Meaning Q A σ) (run : C → Program Q A ε α) :
    σ → List (C × List (Event Q A) × Except ε α) → σ → Prop
  | nil (s : σ) : Serial M run s [] s
  | cons {s t u : σ} {c : C} {tr : List (Event Q A)} {r : Except ε α}
      {rest : List (C × List (Event Q A) × Except ε α)} :
      Run M Quiet (run c) s tr t r → Serial M run t rest u →
      Serial M run s ((c, tr, r) :: rest) u

variable {M : Meaning Q A σ} {R : σ → σ → Prop} {run : C → Program Q A ε α} {s u : σ}
  {log : List (Entry Q A σ)} {order : List ℕ}

/-- The first call comes before the second in the order. -/
abbrev Before (order : List ℕ) (i j : ℕ) : Prop := List.Sublist [i, j] order

/-- What the calls asked, call by call in the given order. -/
def inTurn (order : List ℕ) (log : List (Entry Q A σ)) : List (Event Q A) :=
  order.flatMap fun i => traceOf i log

theorem traceOf_cons_self (x : Entry Q A σ) :
    traceOf x.caller (x :: log) = x.event :: traceOf x.caller log := by
  simp [traceOf]

theorem traceOf_cons_ne {i : ℕ} {x : Entry Q A σ} (h : x.caller ≠ i) :
    traceOf i (x :: log) = traceOf i log := by
  simp [traceOf, h]

theorem inTurn_cons_of_not_mem {x : Entry Q A σ} (h : x.caller ∉ order) :
    inTurn order (x :: log) = inTurn order log := by
  apply List.flatMap_congr
  intro i hi
  apply traceOf_cons_ne
  intro heq
  exact h (heq ▸ hi)

/-- A log can be played call by call if each pair that changes places commutes. -/
theorem Plays.callByCall (hR : Indistinct M R) (hnodup : order.Nodup)
    (hcallers : ∀ x ∈ log, x.caller ∈ order)
    (hpass : log.Pairwise fun x y => Before order y.caller x.caller → x.caller ≠ y.caller →
      Passes M R x.event y.event)
    (h : Plays M s (log.map Entry.event) u) :
    ∃ u', Plays M s (inTurn order log) u' ∧ R u u' := by
  induction log generalizing s with
  | nil =>
      refine ⟨u, ?_, hR.refl u⟩
      have hempty : inTurn order ([] : List (Entry Q A σ)) = [] := by
        simp [inTurn, traceOf]
      rw [hempty]
      exact h
  | cons x log ih =>
      obtain ⟨hx, hlog⟩ := List.pairwise_cons.mp hpass
      obtain ⟨hcaller, hrest⟩ := List.forall_mem_cons.mp hcallers
      obtain ⟨t, hm, hplays⟩ := plays_cons.mp h
      obtain ⟨u₁, hturn, hu₁⟩ := ih hrest hlog hplays
      obtain ⟨before, after, horder⟩ := List.append_of_mem hcaller
      rw [horder, List.nodup_append] at hnodup
      have hbefore : x.caller ∉ before := fun hmem =>
        hnodup.2.2 _ hmem _ List.mem_cons_self rfl
      have hafter : x.caller ∉ after := (List.nodup_cons.mp hnodup.2.1).1
      have hsplit : inTurn order log = inTurn before log ++
          (traceOf x.caller log ++ inTurn after log) := by
        simp [inTurn, horder]
      have hgoal : inTurn order (x :: log) = inTurn before log ++
          x.event :: (traceOf x.caller log ++ inTurn after log) := by
        have h₁ : inTurn before (x :: log) = inTurn before log := inTurn_cons_of_not_mem hbefore
        have h₂ : inTurn after (x :: log) = inTurn after log := inTurn_cons_of_not_mem hafter
        rw [← h₁, ← h₂, ← List.cons_append, ← traceOf_cons_self, horder]
        simp [inTurn]
      rw [hsplit] at hturn
      have hdelay : ∀ ev ∈ inTurn before log, Passes M R x.event ev := by
        intro ev hev
        obtain ⟨j, hj, hev⟩ := List.mem_flatMap.mp hev
        obtain ⟨y, hy, hycaller, hyevent⟩ := mem_traceOf.mp hev
        rw [← hyevent]
        apply hx y hy
        · rw [horder, hycaller]
          have hpair : ([j] ++ [x.caller]).Sublist (before ++ x.caller :: after) :=
            (List.singleton_sublist.mpr hj).append
              (List.singleton_sublist.mpr List.mem_cons_self)
          exact hpair
        · intro hsame
          rw [hsame, hycaller] at hbefore
          exact hbefore hj
      obtain ⟨u', hu', hlike⟩ := Plays.delay hR hdelay (.cons hm hturn)
      rw [hgoal]
      exact ⟨u', hu', hR.trans _ _ _ hu₁ hlike⟩

/-- Finished calls whose questions can be played in turn form a serial run. -/
theorem Plays.serial {calls : List (C × Program Q A ε α)}
    (hdone : ∀ i ∈ order, ∃ c r, calls[i]? = some (c, done r) ∧
      Along (run c) (traceOf i log) (done r))
    (h : Plays M s (inTurn order log) u) :
    ∃ history, Serial M run s history u ∧ List.Forall₂
      (fun i x => calls[i]? = some (x.1, done x.2.2) ∧ x.2.1 = traceOf i log) order history := by
  induction order generalizing s with
  | nil =>
      have hu : u = s := plays_nil.mp h
      rw [hu]
      exact ⟨[], .nil s, .nil⟩
  | cons i order ih =>
      obtain ⟨⟨c, r, hcall, halong⟩, hrest⟩ := List.forall_mem_cons.mp hdone
      have hcons : inTurn (i :: order) log =
          traceOf i log ++ inTurn order log := by
        simp [inTurn]
      rw [hcons, plays_append] at h
      obtain ⟨t, hfirst, hplays⟩ := h
      obtain ⟨history, hserial, hall⟩ := ih hrest hplays
      exact ⟨(c, traceOf i log, r) :: history, .cons (hfirst.run halong) hserial,
        .cons ⟨hcall, rfl⟩ hall⟩

theorem Moves.plays {k : Config C Q A ε α σ} (h : Moves M run (idle s) k) :
    Plays M s (k.log.map Entry.event) k.state := by
  induction h with
  | refl => exact .nil s
  | tail _ hmove ih =>
      cases hmove with
      | start c => exact ih
      | act _ hm =>
          rw [List.map_append]
          exact plays_append.mpr ⟨_, ih, .cons hm (.nil _)⟩

end Calls

section Points
variable {order : List ℕ}

theorem pairwise_at {β : Type} {P : β → β → Prop} {l : List β} (h : l.Pairwise P) {a b : ℕ}
    {x y : β} (ha : l[a]? = some x) (hb : l[b]? = some y) (hab : a < b) : P x y := by
  obtain ⟨hla, hx⟩ := List.getElem?_eq_some_iff.mp ha
  obtain ⟨hlb, hy⟩ := List.getElem?_eq_some_iff.mp hb
  rw [← hx, ← hy]
  exact List.pairwise_iff_getElem.mp h a b hla hlb hab

/-- Calls can be put in the order of their points. -/
theorem exists_order (point : ℕ → ℕ) (n : ℕ) : ∃ order : List ℕ, order.Perm (List.range n) ∧
    order.Pairwise fun i j => point i ≤ point j := by
  have htotal : ∀ i j, point i ≤ point j ∨ point j ≤ point i := fun i j => Nat.le_total _ _
  have htrans : ∀ i j l, point i ≤ point j → point j ≤ point l → point i ≤ point l :=
    fun _ _ _ => Nat.le_trans
  refine ⟨(List.range n).insertionSort fun i j => point i ≤ point j,
    List.perm_insertionSort _ _, ?_⟩
  have : Std.Total fun i j => point i ≤ point j := ⟨htotal⟩
  have : IsTrans ℕ fun i j => point i ≤ point j := ⟨htrans⟩
  exact List.pairwise_insertionSort _ _

theorem pair_le {point : ℕ → ℕ} (h : order.Pairwise fun i j => point i ≤ point j) {i j : ℕ}
    (hpair : Before order i j) : point i ≤ point j :=
  List.pairwise_iff_forall_sublist.mp h hpair

/-- A call with an earlier point comes first. -/
theorem pair_of_lt {point : ℕ → ℕ} (h : order.Pairwise fun i j => point i ≤ point j) {i j : ℕ}
    (hi : i ∈ order) (hj : j ∈ order) (hlt : point i < point j) : Before order i j := by
  obtain ⟨before, after, horder⟩ := List.append_of_mem hi
  rw [horder] at hj ⊢
  rcases List.mem_append.mp hj with hbefore | hrest
  · rw [horder] at h
    have hle := (List.pairwise_append.mp h).2.2 j hbefore i List.mem_cons_self
    omega
  · rcases List.mem_cons.mp hrest with heq | hafter
    · rw [heq] at hlt
      omega
    · apply List.Sublist.trans _ (List.sublist_append_right before _)
      exact (List.singleton_sublist.mpr hafter).cons_cons i

end Points
end LdpProtocol.SerialRuns
