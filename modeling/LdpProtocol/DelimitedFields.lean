import Mathlib

/-!
# Fields joined by a single separator

How far a sequence of free-form fields can be read back from the text that
joins them with one separator. Fields without the separator are recovered
exactly when their number is known; two neighbouring fields can always be
mistaken for one field that contains the separator. Nothing here refers to a
particular format.
-/
namespace LdpProtocol.DelimitedFields

variable {α : Type*} [DecidableEq α]

/-- The fields, one after another, with the separator between neighbours. -/
abbrev joined (sep : α) (fields : List (List α)) : List α := [sep].intercalate fields

def Clean (sep : α) (fields : List (List α)) : Prop := ∀ l ∈ fields, sep ∉ l

instance (sep : α) (fields : List (List α)) : Decidable (Clean sep fields) :=
  inferInstanceAs (Decidable (∀ l ∈ fields, sep ∉ l))

theorem joined_injective {sep : α} {xs ys : List (List α)} (hx : Clean sep xs)
    (hy : Clean sep ys) (hxn : xs ≠ []) (hyn : ys ≠ [])
    (h : joined sep xs = joined sep ys) : xs = ys := by
  have hs := congrArg (List.splitOn sep) h
  rwa [joined, joined, List.splitOn_intercalate sep hx hxn,
    List.splitOn_intercalate sep hy hyn] at hs

/-- Each field adds its own separators, and each gap adds one. -/
theorem count_joined (sep : α) (xs : List (List α)) (hx : xs ≠ []) :
    (joined sep xs).count sep + 1 = xs.length + (xs.map (List.count sep)).sum := by
  induction xs with
  | nil => exact (hx rfl).elim
  | cons x xs ih =>
      cases xs with
      | nil => simp [Nat.add_comm]
      | cons y ys =>
          have h := ih (by simp)
          rw [joined, List.intercalate_cons_cons]
          simp only [joined, List.count_append, List.count_singleton_self, List.length_cons,
            List.map_cons, List.sum_cons] at h ⊢
          omega

theorem clean_of_count {sep : α} {xs : List (List α)}
    (h : (xs.map (List.count sep)).sum = 0) : Clean sep xs := by
  intro l hl
  have hz := (List.sum_eq_zero_iff_forall_eq_nat.mp h) (l.count sep) (List.mem_map_of_mem hl)
  exact List.count_eq_zero.mp hz

theorem count_of_clean {sep : α} {xs : List (List α)} (h : Clean sep xs) :
    (xs.map (List.count sep)).sum = 0 := by
  apply List.sum_eq_zero_iff_forall_eq_nat.mpr
  intro n hn
  obtain ⟨l, hl, rfl⟩ := List.mem_map.mp hn
  exact List.count_eq_zero.mpr (h l hl)

/-- Clean fields are the only reading of their text with as many fields or more. -/
theorem joined_unique {sep : α} {xs ys : List (List α)} (hx : Clean sep xs)
    (hxn : xs ≠ []) (hyn : ys ≠ []) (hlen : xs.length ≤ ys.length)
    (h : joined sep xs = joined sep ys) : xs = ys := by
  have hcx := count_joined sep xs hxn
  have hcy := count_joined sep ys hyn
  rw [count_of_clean hx, h] at hcx
  have hy : Clean sep ys := clean_of_count (by omega)
  exact joined_injective hx hy hxn hyn h

omit [DecidableEq α] in
theorem joined_cons {sep : α} (x : List α) {xs : List (List α)} (hx : xs ≠ []) :
    joined sep (x :: xs) = x ++ sep :: joined sep xs := by
  rw [joined, List.intercalate_cons_of_ne_nil hx, List.append_assoc]
  rfl

omit [DecidableEq α] in
/-- Two neighbours read as one field. -/
theorem joined_merge (sep : α) (before : List (List α)) (a b : List α)
    (after : List (List α)) :
    joined sep (before ++ (a ++ sep :: b) :: after) =
      joined sep (before ++ a :: b :: after) := by
  induction before with
  | nil =>
      rw [List.nil_append, List.nil_append, joined_cons a (by simp)]
      cases after with
      | nil => simp
      | cons c cs => rw [joined_cons _ (by simp), joined_cons b (by simp), List.append_assoc,
          List.cons_append]
  | cons x xs ih =>
      rw [List.cons_append, List.cons_append, joined_cons x (by simp), joined_cons x (by simp), ih]

omit [DecidableEq α] in
/-- A separator inside the second of two neighbours can move into the first. -/
theorem joined_shift (sep : α) (before : List (List α)) (p a b : List α)
    (after : List (List α)) :
    joined sep (before ++ p :: (a ++ sep :: b) :: after) =
      joined sep (before ++ (p ++ sep :: a) :: b :: after) := by
  have h := joined_merge sep (before ++ [p]) a b after
  rw [List.append_assoc, List.append_assoc] at h
  exact h.trans (joined_merge sep before p a (b :: after)).symm

omit [DecidableEq α] in
/-- A separator inside one of several fields can move into a neighbour. -/
theorem exists_shifted {sep : α} {xs : List (List α)} (hlen : 2 ≤ xs.length)
    (h : ¬ Clean sep xs) : ∃ ys, ys.length = xs.length ∧ ys ≠ xs ∧
      ∀ after, joined sep (ys ++ after) = joined sep (xs ++ after) := by
  unfold Clean at h
  push Not at h
  obtain ⟨field, hfield, hsep⟩ := h
  obtain ⟨a, b, rfl⟩ := List.append_of_mem hsep
  obtain ⟨front, back, rfl⟩ := List.append_of_mem hfield
  rcases List.eq_nil_or_concat front with rfl | ⟨front, p, rfl⟩
  · cases back with
    | nil => simp at hlen
    | cons c back =>
        refine ⟨a :: (b ++ sep :: c) :: back, by simp, ?_, fun after => ?_⟩
        · intro heq
          have hhead := congrArg List.length (List.cons.inj heq).1
          simp at hhead
        · exact joined_shift sep [] a b c (back ++ after)
  · refine ⟨front ++ (p ++ sep :: a) :: b :: back, by simp, ?_, fun after => ?_⟩
    · intro heq
      rw [List.concat_eq_append, List.append_assoc, List.append_cancel_left_eq] at heq
      have hhead := congrArg List.length (List.cons.inj heq).1
      simp at hhead
    · simp only [List.concat_eq_append, List.append_assoc, List.cons_append, List.nil_append]
      exact (joined_shift sep front p a b (back ++ after)).symm

omit [DecidableEq α] in
/-- Two readings of a text as two fields are the same, or one of them moves a field
between two separators to the other side. -/
theorem two_readings_iff {sep : α} {a b c d : List α} : a ++ sep :: b = c ++ sep :: d ↔
    (a = c ∧ b = d) ∨ (∃ m, c = a ++ sep :: m ∧ b = m ++ sep :: d) ∨
      ∃ m, a = c ++ sep :: m ∧ d = m ++ sep :: b := by
  constructor
  · intro h
    rcases List.append_eq_append_iff.mp h with ⟨rest, hfront, hback⟩ | ⟨rest, hfront, hback⟩
    · cases rest with
      | nil =>
          rw [List.append_nil] at hfront
          exact .inl ⟨hfront.symm, (List.cons.inj hback).2⟩
      | cons x m =>
          obtain ⟨hx, hb⟩ := List.cons.inj hback
          subst hx
          exact .inr (.inl ⟨m, hfront, hb⟩)
    · cases rest with
      | nil =>
          rw [List.append_nil] at hfront
          exact .inl ⟨hfront, (List.cons.inj hback).2.symm⟩
      | cons x m =>
          obtain ⟨hx, hd⟩ := List.cons.inj hback
          subst hx
          exact .inr (.inr ⟨m, hfront, hd⟩)
  · intro h
    rcases h with ⟨ha, hb⟩ | ⟨m, hc, hb⟩ | ⟨m, ha, hd⟩
    · rw [ha, hb]
    · rw [hc, hb]
      simp
    · rw [ha, hd]
      simp

/-- The text after the last separator does not depend on the reading. -/
theorem last_unique {sep : α} {a b t u : List α} (ht : sep ∉ t) (hu : sep ∉ u)
    (h : a ++ sep :: t = b ++ sep :: u) : t = u := by
  have key : ∀ (l r : List α), sep ∉ r →
      (l ++ sep :: r).reverse.takeWhile (fun c => decide (c ≠ sep)) = r.reverse := by
    intro l r hr
    rw [List.reverse_append, List.reverse_cons, List.append_assoc,
      List.takeWhile_append_of_pos]
    · simp
    · intro c hc
      have hne : c ≠ sep := by
        rintro rfl
        exact hr (List.mem_reverse.mp hc)
      simpa using hne
  have hr := key a t ht
  rw [h, key b u hu] at hr
  exact (List.reverse_injective hr).symm

omit [DecidableEq α] in
theorem joined_append_last {sep : α} (xs : List (List α)) (hx : xs ≠ []) (t : List α) :
    joined sep (xs ++ [t]) = joined sep xs ++ sep :: t := by
  induction xs with
  | nil => exact (hx rfl).elim
  | cons x xs ih =>
      cases xs with
      | nil => simp [joined]
      | cons y ys =>
          rw [List.cons_append, joined_cons x (by simp), ih (by simp), joined_cons x (by simp),
            List.append_assoc, List.cons_append]

end LdpProtocol.DelimitedFields
