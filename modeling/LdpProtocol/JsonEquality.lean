import LdpProtocol.JsonValues

/-!
# When two JSON values are the same

Objects are the same when they have the same members, whatever their order and
whatever a key lookup passes over; everything else is compared part by part.
Nothing here refers to a particular protocol.
-/
namespace LdpProtocol.JsonValues.Value

theorem lookup_cons_if (member : String × Value) (members : List (String × Value))
    (key : String) : (member :: members).lookup key =
      if key = member.1 then some member.2 else members.lookup key := by
  rw [List.lookup_cons]
  by_cases hkey : key = member.1
  · simp [hkey]
  · rw [beq_false_of_ne hkey, if_neg hkey]

inductive Same : Value → Value → Prop
  | null : Same .null .null
  | bool (b : Bool) : Same (.bool b) (.bool b)
  | number (n : Number) : Same (.number n) (.number n)
  | string (s : String) : Same (.string s) (.string s)
  | array {xs ys : List Value} : List.Forall₂ Same xs ys → Same (.array xs) (.array ys)
  | object {xs ys : List (String × Value)} :
      (∀ key, Option.Rel Same (xs.lookup key) (ys.lookup key)) → Same (.object xs) (.object ys)

theorem same_object_iff {xs ys : List (String × Value)} : Same (.object xs) (.object ys) ↔
    ∀ key, Option.Rel Same (xs.lookup key) (ys.lookup key) := by
  constructor
  · intro h
    cases h with
    | object h => exact h
  · exact .object

theorem Same.refl : ∀ v : Value, Same v v
  | .null => .null
  | .bool b => .bool b
  | .number n => .number n
  | .string s => .string s
  | .array xs => by
      apply Same.array
      rw [List.forall₂_same]
      exact fun x hx => Same.refl x
  | .object xs => by
      apply Same.object
      intro key
      cases h : xs.lookup key with
      | none => exact .none
      | some v =>
          obtain ⟨before, after, hxs, _⟩ := List.lookup_eq_some_iff.mp h
          have hmem : (key, v) ∈ xs := by
            rw [hxs]
            simp
          exact .some (Same.refl v)
  decreasing_by
    · have hlt := List.sizeOf_lt_of_mem hx
      simp only [array.sizeOf_spec]
      omega
    · have hlt := List.sizeOf_lt_of_mem hmem
      simp only [Prod.mk.sizeOf_spec] at hlt
      simp only [object.sizeOf_spec]
      omega

end LdpProtocol.JsonValues.Value
