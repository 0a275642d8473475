import Mathlib

/-!
# Maps that remember the order of insertion

A map is the list of its entries, each key once. A new key goes to the end; an
assignment to a key that is there keeps its place. Nothing here refers to a
particular program.
-/
namespace LdpProtocol.InsertionOrderedMaps

variable {κ β : Type} [DecidableEq κ]

/-- The entries after an assignment. -/
def assign (key : κ) (value : β) : List (κ × β) → List (κ × β)
  | [] => [(key, value)]
  | entry :: entries =>
      if entry.1 = key then (key, value) :: entries else entry :: assign key value entries

theorem keys_assign (key : κ) (value : β) (entries : List (κ × β)) :
    (assign key value entries).map Prod.fst =
      if key ∈ entries.map Prod.fst then entries.map Prod.fst
      else entries.map Prod.fst ++ [key] := by
  induction entries with
  | nil => simp [assign]
  | cons entry entries ih =>
      by_cases h : entry.1 = key
      · simp [assign, h]
      · have hne : key ≠ entry.1 := Ne.symm h
        simp only [assign, h, if_false, List.map_cons, ih, List.mem_cons, hne, false_or]
        split <;> rfl

theorem nodup_assign (key : κ) (value : β) {entries : List (κ × β)}
    (h : (entries.map Prod.fst).Nodup) : ((assign key value entries).map Prod.fst).Nodup := by
  rw [keys_assign]
  split
  · exact h
  · next hnew => simpa using h.concat hnew

theorem lookup_cons (key : κ) (entry : κ × β) (entries : List (κ × β)) :
    (entry :: entries).lookup key =
      if key = entry.1 then some entry.2 else entries.lookup key := by
  obtain ⟨key', value⟩ := entry
  by_cases h : key = key'
  · simp [h]
  · have hne : (key == key') = false := beq_false_of_ne h
    simp [List.lookup_cons, hne, h]

theorem lookup_assign (key key' : κ) (value : β) (entries : List (κ × β)) :
    (assign key value entries).lookup key' =
      if key' = key then some value else entries.lookup key' := by
  induction entries with
  | nil => rw [assign, lookup_cons]
  | cons entry entries ih =>
      by_cases hentry : entry.1 = key
      · rw [assign, if_pos hentry, lookup_cons, lookup_cons, hentry]
        split <;> rfl
      · rw [assign, if_neg hentry, lookup_cons, lookup_cons, ih]
        by_cases h : key' = entry.1
        · have hne : key' ≠ key := fun heq => hentry (h.symm.trans heq)
          rw [if_pos h, if_neg hne, if_pos h]
        · rw [if_neg h, if_neg h]

theorem lookup_eq_some_iff {key : κ} {value : β} {entries : List (κ × β)}
    (h : (entries.map Prod.fst).Nodup) :
    entries.lookup key = some value ↔ (key, value) ∈ entries := by
  induction entries with
  | nil => simp
  | cons entry entries ih =>
      rw [List.map_cons, List.nodup_cons] at h
      obtain ⟨hfresh, hnodup⟩ := h
      rw [lookup_cons, List.mem_cons]
      by_cases hkey : key = entry.1
      · have habsent : (key, value) ∉ entries := fun hmem =>
          hfresh (hkey ▸ List.mem_map_of_mem (f := Prod.fst) hmem)
        simp [hkey, Prod.ext_iff, eq_comm, hkey ▸ habsent]
      · have hne : (key, value) ≠ entry := fun heq => hkey (congrArg Prod.fst heq)
        simp [hkey, hne, ih hnodup]

structure OrderedMap (κ β : Type) where
  entries : List (κ × β)
  nodup : (entries.map Prod.fst).Nodup

namespace OrderedMap
variable (m : OrderedMap κ β) (key key' : κ) (value : β)

def empty : OrderedMap κ β := ⟨[], List.nodup_nil⟩

def set : OrderedMap κ β := ⟨assign key value m.entries, nodup_assign key value m.nodup⟩

def lookup : Option β := m.entries.lookup key

def values : List β := m.entries.map Prod.snd

@[simp] theorem lookup_empty : (empty : OrderedMap κ β).lookup key = none := rfl

theorem lookup_set : (m.set key value).lookup key' =
    if key' = key then some value else m.lookup key' :=
  lookup_assign key key' value m.entries

@[simp] theorem lookup_set_self : (m.set key value).lookup key = some value := by
  rw [lookup_set, if_pos rfl]

variable {m key value}

/-- The values are what the keys lead to. -/
theorem mem_values_iff : value ∈ m.values ↔ ∃ key, m.lookup key = some value := by
  unfold values lookup
  simp only [lookup_eq_some_iff m.nodup, List.mem_map, Prod.exists, exists_eq_right]

end OrderedMap
end LdpProtocol.InsertionOrderedMaps
