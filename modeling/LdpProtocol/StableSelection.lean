import Mathlib

/-!
# The first element of a stable sort

Sorting a list stably and taking the head is choosing the first of the least
elements. The order has to agree with one on values only among the elements of
the list. Nothing here refers to a particular program.
-/
namespace LdpProtocol.StableSelection

section
variable {α κ : Type} [LinearOrder κ] {value : α → κ} {l : List α} {a : α}

theorem head?_orderedInsert (r : α → α → Prop) [DecidableRel r] (a : α) (l : List α) :
    (l.orderedInsert r a).head? = some (l.head?.elim a fun b => if r a b then a else b) := by
  cases l with
  | nil => rfl
  | cons b l =>
      rw [List.orderedInsert_cons]
      by_cases h : r a b
      · simp [h]
      · simp [h]

/-- The head of a stable sort is the first element of least value. -/
theorem head?_insertionSort (r : α → α → Prop) [DecidableRel r] (l : List α)
    (h : ∀ a ∈ l, ∀ b ∈ l, r a b ↔ value a ≤ value b) :
    (l.insertionSort r).head? = l.argmin value := by
  induction l with
  | nil => rfl
  | cons a l ih =>
      have hl : (l.insertionSort r).head? = l.argmin value :=
        ih fun b hb c hc => h b (List.mem_cons_of_mem a hb) c (List.mem_cons_of_mem a hc)
      rw [List.insertionSort_cons, head?_orderedInsert, hl, List.argmin_cons]
      cases hleast : l.argmin value with
      | none => rfl
      | some b =>
          have hb : b ∈ l := List.argmin_mem hleast
          have hab := h a List.mem_cons_self b (List.mem_cons_of_mem a hb)
          by_cases hle : value a ≤ value b
          · simp [hab.mpr hle, not_lt.mpr hle]
          · simp [mt hab.mp hle, not_le.mp hle]

/-- What comes before the chosen element is strictly greater. -/
theorem argmin_split (h : l.argmin value = some a) :
    ∃ before after, l = before ++ a :: after ∧ (∀ b ∈ before, value a < value b) ∧
      ∀ b ∈ after, value a ≤ value b := by
  induction l with
  | nil => cases h
  | cons b l ih =>
      rw [List.argmin_cons] at h
      cases hleast : l.argmin value with
      | none =>
          rw [hleast] at h
          cases h
          rw [List.argmin_eq_none.mp hleast]
          exact ⟨[], [], rfl, by simp, by simp⟩
      | some c =>
          rw [hleast] at h
          dsimp only at h
          split at h
          · next hlt =>
              cases h
              obtain ⟨before, after, hl, hbefore, hafter⟩ := ih hleast
              refine ⟨b :: before, after, by rw [hl, List.cons_append], ?_, hafter⟩
              intro d hd
              rcases List.mem_cons.mp hd with rfl | hd
              · exact hlt
              · exact hbefore d hd
          · next hge =>
              cases h
              refine ⟨[], l, rfl, by simp, ?_⟩
              intro d hd
              exact (not_lt.mp hge).trans (List.le_of_mem_argmin hd hleast)

end
end LdpProtocol.StableSelection
