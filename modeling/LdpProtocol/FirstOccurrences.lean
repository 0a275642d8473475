import Mathlib

/-!
# First occurrences

A list without its repetitions, each entry where it first stands. A loop that
appends what it has not seen yet builds this list; the order of its entries is that
of their first positions. Nothing here refers to a particular protocol.
-/
namespace LdpProtocol.FirstOccurrences

section
variable {α : Type} [DecidableEq α] {xs : List α} {x : α}

theorem eraseDups_concat (xs : List α) (x : α) :
    (xs ++ [x]).eraseDups = xs.eraseDups ++ if x ∈ xs then [] else [x] := by
  rw [List.eraseDups_append]
  by_cases hx : x ∈ xs
  · simp [List.removeAll, hx]
  · simp [List.removeAll, hx, List.eraseDups_cons]

theorem nodup_eraseDups (xs : List α) : xs.eraseDups.Nodup := by
  induction xs using List.reverseRecOn with
  | nil => simp
  | append_singleton xs x ih =>
      rw [eraseDups_concat]
      split
      · rwa [List.append_nil]
      · next hx =>
          refine List.Nodup.append ih (List.nodup_singleton x) ?_
          simpa [List.mem_eraseDups] using hx

theorem eraseDups_eq_self_iff : xs.eraseDups = xs ↔ xs.Nodup := by
  constructor
  · intro h
    rw [← h]
    exact nodup_eraseDups xs
  · intro h
    induction xs using List.reverseRecOn with
    | nil => rfl
    | append_singleton xs x ih =>
        have hparts := List.nodup_append'.mp h
        have hx : x ∉ xs := fun hmem => hparts.2.2 hmem (List.mem_singleton_self x)
        rw [eraseDups_concat, if_neg hx, ih hparts.1]

theorem filter_eraseDups (p : α → Bool) (xs : List α) :
    xs.eraseDups.filter p = (xs.filter p).eraseDups := by
  induction xs using List.reverseRecOn with
  | nil => rfl
  | append_singleton xs x ih =>
      rw [eraseDups_concat, List.filter_append, List.filter_append, ih]
      by_cases hp : p x = true
      · rw [List.filter_cons_of_pos hp, List.filter_nil, eraseDups_concat]
        by_cases hx : x ∈ xs
        · simp [hx, hp]
        · simp [hx, hp]
      · rw [List.filter_cons_of_neg hp, List.filter_nil, List.append_nil]
        split
        · simp
        · simp [hp]

/-- The loop that appends what is new. -/
theorem foldl_append_new (p : α → Bool) (step : List α → α → List α)
    (hstep : ∀ acc x, step acc x = if p x = true ∧ x ∉ acc then acc ++ [x] else acc)
    (xs : List α) : xs.foldl step [] = (xs.filter p).eraseDups := by
  induction xs using List.reverseRecOn with
  | nil => rfl
  | append_singleton xs x ih =>
      rw [List.foldl_append, List.foldl_cons, List.foldl_nil, ih, hstep, List.filter_append]
      by_cases hp : p x = true
      · rw [List.filter_cons_of_pos hp, List.filter_nil, eraseDups_concat]
        by_cases hx : x ∈ xs.filter p
        · rw [if_neg (by simp [List.mem_eraseDups, hx]), if_pos hx, List.append_nil]
        · rw [if_pos ⟨hp, by simpa [List.mem_eraseDups] using hx⟩, if_neg hx]
      · rw [if_neg fun h => hp h.1, List.filter_cons_of_neg hp, List.filter_nil, List.append_nil]

/-- The entries stand in the order of their first positions. -/
theorem pairwise_idxOf (xs : List α) :
    xs.eraseDups.Pairwise fun a b => xs.idxOf a < xs.idxOf b := by
  induction xs using List.reverseRecOn with
  | nil => simp
  | append_singleton xs x ih =>
      rw [eraseDups_concat]
      have hold : xs.eraseDups.Pairwise fun a b => (xs ++ [x]).idxOf a < (xs ++ [x]).idxOf b := by
        refine List.Pairwise.imp_of_mem ?_ ih
        intro a b ha hb hlt
        rw [List.idxOf_append_of_mem (List.mem_eraseDups.mp ha),
          List.idxOf_append_of_mem (List.mem_eraseDups.mp hb)]
        exact hlt
      split
      · rwa [List.append_nil]
      · next hx =>
          refine List.pairwise_append.mpr ⟨hold, List.pairwise_singleton _ _, ?_⟩
          intro a ha b hb
          rw [List.mem_singleton.mp hb, List.idxOf_append_of_mem (List.mem_eraseDups.mp ha),
            List.idxOf_append_of_notMem hx]
          have hlt := List.idxOf_lt_length_of_mem (List.mem_eraseDups.mp ha)
          omega

/-- What is found stands before everything else that could be. -/
theorem idxOf_le_of_find? {p : α → Bool} {m : α} (hm : xs.find? p = some m) (hx : x ∈ xs)
    (hp : p x = true) : xs.idxOf m ≤ xs.idxOf x := by
  induction xs with
  | nil => cases hx
  | cons y ys ih =>
      by_cases hy : p y = true
      · rw [List.find?_cons_of_pos hy] at hm
        cases hm
        rw [List.idxOf_cons_self]
        exact Nat.zero_le _
      · rw [List.find?_cons_of_neg hy] at hm
        have hxy : y ≠ x := fun heq => hy (heq ▸ hp)
        have hmy : y ≠ m := fun heq => hy (heq ▸ List.find?_some hm)
        have hle := ih hm ((List.mem_cons.mp hx).resolve_left (Ne.symm hxy))
        rw [List.idxOf_cons_ne _ hxy, List.idxOf_cons_ne _ hmy]
        omega

/-- A relation holds along the list if it respects the first positions. -/
theorem pairwise_eraseDups_iff {r : α → α → Prop} : xs.eraseDups.Pairwise r ↔
    ∀ a ∈ xs, ∀ b ∈ xs, xs.idxOf a < xs.idxOf b → r a b := by
  constructor
  · intro h a ha b hb hlt
    have hboth := h.and (pairwise_idxOf xs)
    have ha' := List.mem_eraseDups.mpr ha
    have hb' := List.mem_eraseDups.mpr hb
    have hne : a ≠ b := by
      intro heq
      rw [heq] at hlt
      exact lt_irrefl _ hlt
    obtain ⟨i, hi, hia⟩ := List.getElem_of_mem ha'
    obtain ⟨j, hj, hjb⟩ := List.getElem_of_mem hb'
    rcases lt_trichotomy i j with hij | hij | hij
    · have hr := List.pairwise_iff_getElem.mp hboth i j hi hj hij
      rw [hia, hjb] at hr
      exact hr.1
    · subst hij
      exact (hne (hia.symm.trans hjb)).elim
    · have hr := List.pairwise_iff_getElem.mp hboth j i hj hi hij
      rw [hia, hjb] at hr
      exact (lt_asymm hlt hr.2).elim
  · intro h
    refine List.Pairwise.imp_of_mem ?_ (pairwise_idxOf xs)
    intro a b ha hb hlt
    exact h a (List.mem_eraseDups.mp ha) b (List.mem_eraseDups.mp hb) hlt

/-- The last entry of a list in increasing order is the greatest one. -/
theorem getLast?_eq_some_iff {f : α → ℕ} (h : xs.Pairwise fun a b => f a < f b) :
    xs.getLast? = some x ↔ x ∈ xs ∧ ∀ a ∈ xs, f a ≤ f x := by
  rcases List.eq_nil_or_concat xs with hnil | ⟨front, last, hconcat⟩
  · simp [hnil]
  · rw [List.concat_eq_append] at hconcat
    subst hconcat
    have hlast := (List.pairwise_append.mp h).2.2
    rw [List.getLast?_concat, Option.some.injEq]
    constructor
    · intro heq
      subst heq
      refine ⟨by simp, ?_⟩
      intro a ha
      rcases List.mem_append.mp ha with ha | ha
      · exact le_of_lt (hlast a ha last (by simp))
      · rw [List.mem_singleton.mp ha]
    · intro hmax
      rcases List.mem_append.mp hmax.1 with hx | hx
      · have hlt := hlast x hx last (by simp)
        have hle := hmax.2 last (by simp)
        omega
      · exact (List.mem_singleton.mp hx).symm

end
end LdpProtocol.FirstOccurrences
