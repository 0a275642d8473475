import Mathlib

/-!
# Bounded caches of recently used keys

A cache of least-recently-used keys, used as a set: a key is looked up without
being touched and put only when it is absent. `LruCache` lists the operations,
`Recency` what is known of them through the order in which the keys were last
used. Under that discipline the cache always holds the last keys put, as many
as fit. Nothing here refers to a particular program.
-/
namespace LdpProtocol.RecencyCaches

structure LruCache (K : Type) where
  Cache : Type
  new : ℕ → Cache
  contains : Cache → K → Bool
  put : Cache → K → Cache

/-- What is relied on: the keys, most recently used first, fit the capacity; a
lookup moves nothing; a new key goes to the front and the last one that does not
fit is evicted. -/
structure LruCache.Recency {K : Type} (L : LruCache K) where
  recent : L.Cache → List K
  capacity : L.Cache → ℕ
  recent_new : ∀ c, recent (L.new c) = []
  capacity_new : ∀ c, capacity (L.new c) = c
  contains_iff : ∀ s k, L.contains s k = true ↔ k ∈ recent s
  recent_put : ∀ s k, k ∉ recent s → recent (L.put s k) = (k :: recent s).take (capacity s)
  capacity_put : ∀ s k, capacity (L.put s k) = capacity s

/-- The last `c` of a list of keys, newest first. -/
def lastKeys {K : Type} (c : ℕ) (keys : List K) : List K := keys.reverse.take c

section
variable {K : Type} {c : ℕ} {keys : List K} {k : K}

theorem lastKeys_concat (hc : 0 < c) :
    lastKeys c (keys ++ [k]) = (k :: lastKeys c keys).take c := by
  obtain ⟨n, rfl⟩ : ∃ n, c = n + 1 := ⟨c - 1, by omega⟩
  simp [lastKeys, List.take_take]

/-- A key with fewer than `c` keys after it is among the last `c`. -/
theorem mem_lastKeys_iff :
    k ∈ lastKeys c keys ↔ ∃ earlier later, keys = earlier ++ k :: later ∧ later.length < c := by
  unfold lastKeys
  constructor
  · intro h
    obtain ⟨front, back, hsplit⟩ := List.append_of_mem h
    have hlen := congrArg List.length hsplit
    have hle := List.length_take_le c keys.reverse
    have hkeys : keys.reverse = front ++ k :: (back ++ keys.reverse.drop c) := by
      calc
        keys.reverse = keys.reverse.take c ++ keys.reverse.drop c :=
          (List.take_append_drop c keys.reverse).symm
        _ = front ++ k :: (back ++ keys.reverse.drop c) := by
          rw [hsplit, List.append_assoc, List.cons_append]
    generalize keys.reverse.drop c = rest at hkeys
    refine ⟨(back ++ rest).reverse, front.reverse, ?_, ?_⟩
    · apply List.reverse_injective
      rw [hkeys]
      simp
    · simp only [List.length_append, List.length_cons] at hlen
      rw [List.length_reverse]
      omega
  · intro h
    obtain ⟨earlier, later, rfl, hlen⟩ := h
    rw [List.reverse_append, List.reverse_cons, List.append_assoc, List.take_append,
      List.length_reverse]
    obtain ⟨n, hn⟩ : ∃ n, c - later.length = n + 1 := ⟨c - later.length - 1, by omega⟩
    rw [hn]
    simp

/-- The same of what some things put: a key is among the last `c` when fewer than
`c` keys were put after one that put it. -/
theorem mem_lastKeys_filterMap_iff {A : Type} {put : A → Option K} {things : List A} :
    k ∈ lastKeys c (things.filterMap put) ↔ ∃ earlier a later,
      things = earlier ++ a :: later ∧ put a = some k ∧ (later.filterMap put).length < c := by
  rw [mem_lastKeys_iff]
  constructor
  · intro h
    obtain ⟨before, behind, hsplit, hlen⟩ := h
    obtain ⟨earlier, rest, hthings, _, hrest⟩ := List.filterMap_eq_append_iff.mp hsplit
    obtain ⟨skipped, a, later, hrest', hskipped, hkey, hlater⟩ :=
      List.filterMap_eq_cons_iff.mp hrest
    refine ⟨earlier ++ skipped, a, later, ?_, hkey, ?_⟩
    · rw [hthings, hrest', List.append_assoc]
    · rw [hlater]
      exact hlen
  · intro h
    obtain ⟨earlier, a, later, hthings, hkey, hlen⟩ := h
    refine ⟨earlier.filterMap put, later.filterMap put, ?_, hlen⟩
    rw [hthings, List.filterMap_append, List.filterMap_cons_some hkey]

end

/-- What holds at every call of a history, said of its last call and of the others. -/
theorem at_every_concat {A : Type} {P : List A → A → Prop} {calls : List A} {c : A} :
    (∀ before d behind, calls ++ [c] = before ++ d :: behind → P before d) ↔
      (∀ before d behind, calls = before ++ d :: behind → P before d) ∧ P calls c := by
  constructor
  · intro h
    refine ⟨?_, h calls c [] rfl⟩
    intro before d behind hsplit
    exact h before d (behind ++ [c]) (by rw [hsplit]; simp)
  · intro h before d behind hsplit
    rcases List.eq_nil_or_concat behind with hnil | ⟨rest, last, hconcat⟩
    · subst hnil
      obtain ⟨hbefore, hd⟩ := List.append_inj' hsplit rfl
      cases hd
      subst hbefore
      exact h.2
    · rw [hconcat, List.concat_eq_append, ← List.cons_append, ← List.append_assoc] at hsplit
      exact h.1 before d rest (List.append_inj' hsplit rfl).1

section
variable {K : Type} (L : LruCache K)

/-- The states reached by putting keys that are absent, oldest first. -/
inductive Filled (s₀ : L.Cache) : List K → L.Cache → Prop
  | start : Filled s₀ [] s₀
  | put {keys : List K} {s : L.Cache} {k : K} : Filled s₀ keys s → L.contains s k = false →
      Filled s₀ (keys ++ [k]) (L.put s k)

variable {L} (R : L.Recency) {c : ℕ} {keys : List K} {s : L.Cache}

theorem Filled.capacity (h : Filled L (L.new c) keys s) : R.capacity s = c := by
  induction h with
  | start => exact R.capacity_new c
  | put _ _ ih => rw [R.capacity_put, ih]

theorem Filled.recent (hc : 0 < c) (h : Filled L (L.new c) keys s) :
    R.recent s = lastKeys c keys := by
  induction h with
  | start =>
      rw [R.recent_new]
      simp [lastKeys]
  | @put keys s k hfilled habsent ih =>
      have hk : k ∉ R.recent s := by
        rw [← R.contains_iff, habsent]
        exact Bool.false_ne_true
      rw [R.recent_put s k hk, hfilled.capacity R, ih, lastKeys_concat hc]

include R in
/-- The cache holds exactly the last `c` keys put. -/
theorem Filled.contains_iff (hc : 0 < c) (h : Filled L (L.new c) keys s) (k : K) :
    L.contains s k = true ↔ k ∈ lastKeys c keys := by
  rw [R.contains_iff, h.recent R hc]

end

/-- A cache kept as the list of its keys. -/
def listCache (K : Type) [DecidableEq K] : LruCache K where
  Cache := ℕ × List K
  new c := (c, [])
  contains s k := decide (k ∈ s.2)
  put s k := (s.1, (k :: s.2.erase k).take s.1)

def listRecency (K : Type) [DecidableEq K] : (listCache K).Recency where
  recent s := s.2
  capacity s := s.1
  recent_new _ := rfl
  capacity_new _ := rfl
  contains_iff _ _ := decide_eq_true_iff
  recent_put s k h := by
    simp only [listCache]
    rw [List.erase_of_not_mem h]
  capacity_put _ _ := rfl

end LdpProtocol.RecencyCaches
