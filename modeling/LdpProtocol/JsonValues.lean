import Mathlib

/-!
# JSON values and field-wise decoding

Integers and other numbers are kept apart, as a JSON library does that reads
`3` and `3.0` differently; both are exact. An object is the list of its members
and is only read through key lookup. Decoders return `none` where a library
reports an error. Nothing here refers to a particular protocol.
-/
namespace LdpProtocol.JsonValues

inductive Number where
  | int (i : ℤ)
  | float (q : ℚ)
  deriving DecidableEq

inductive Value where
  | null
  | bool (b : Bool)
  | number (n : Number)
  | string (s : String)
  | array (items : List Value)
  | object (members : List (String × Value))

namespace Value
variable {α : Type}

/-- Key lookup; every value but an object has no members. -/
def get : Value → String → Option Value
  | .object members, key => members.lookup key
  | _, _ => none

def asStr : Value → Option String
  | .string s => some s
  | _ => none

def asBool : Value → Option Bool
  | .bool b => some b
  | _ => none

def asInt : Value → Option ℤ
  | .number (.int i) => some i
  | _ => none

/-- Only integers in the unsigned range qualify, not floats of integral value. -/
def asU64 : Value → Option UInt64
  | .number (.int i) => if 0 ≤ i ∧ i < 2 ^ 64 then some (UInt64.ofNat i.toNat) else none
  | _ => none

def asU32 : Value → Option UInt32
  | .number (.int i) => if 0 ≤ i ∧ i < 2 ^ 32 then some (UInt32.ofNat i.toNat) else none
  | _ => none

def asF64 : Value → Option ℚ
  | .number (.int i) => some i
  | .number (.float q) => some q
  | _ => none

def asArray (decode : Value → Option α) : Value → Option (List α)
  | .array items => items.mapM decode
  | _ => none

def asObject : Value → Option (List (String × Value))
  | .object members => some members
  | _ => none

def asStringMap (v : Value) : Option (List (String × String)) := do
  let members ← v.asObject
  members.mapM fun m => do pure (m.1, ← m.2.asStr)

/-- A unit variant is read from its name, or from an object whose only member
is the name with a `null` content. -/
def asUnitVariant (ofName : String → Option α) : Value → Option α
  | .string s => ofName s
  | .object [(s, .null)] => ofName s
  | _ => none

def ofU64 (n : UInt64) : Value := .number (.int n.toNat)

def ofU32 (n : UInt32) : Value := .number (.int n.toNat)

def ofF64 (q : ℚ) : Value := .number (.float q)

def ofStrings (xs : List String) : Value := .array (xs.map .string)

def ofStringMap (xs : List (String × String)) : Value :=
  .object (xs.map fun m => (m.1, .string m.2))

/-- A mandatory member. -/
def field (v : Value) (key : String) (decode : Value → Option α) : Option α :=
  (v.get key).bind decode

def isNull : Value → Bool
  | .null => true
  | _ => false

def nullable (decode : Value → Option α) (v : Value) : Option (Option α) :=
  if v.isNull then some none else (decode v).map some

/-- A nullable member: absent and `null` both decode to nothing. -/
def optionField (v : Value) (key : String) (decode : Value → Option α) : Option (Option α) :=
  match v.get key with
  | none => some none
  | some w => w.nullable decode

/-- A member with a default for the absent case only. -/
def defaultField (v : Value) (key : String) (default : α)
    (decode : Value → Option α) : Option α :=
  match v.get key with
  | none => some default
  | some w => decode w

def orNull (encode : α → Value) : Option α → Value
  | some a => encode a
  | none => .null

/-- The member of an optional value that is left out when there is none. -/
def skipNone (key : String) (encode : α → Value) : Option α → List (String × Value)
  | some a => [(key, encode a)]
  | none => []

@[simp] theorem get_object (members : List (String × Value)) (key : String) :
    (Value.object members).get key = members.lookup key := rfl

@[simp] theorem asStr_string (s : String) : (Value.string s).asStr = some s := rfl

@[simp] theorem asStr_orNull_string (o : Option String) :
    (orNull .string o).asStr = o := by
  cases o <;> rfl

@[simp] theorem asUnitVariant_string (ofName : String → Option α) (s : String) :
    (Value.string s).asUnitVariant ofName = ofName s := rfl

@[simp] theorem asBool_bool (b : Bool) : (Value.bool b).asBool = some b := rfl

@[simp] theorem isNull_null : Value.null.isNull = true := rfl

@[simp] theorem isNull_string (s : String) : (Value.string s).isNull = false := rfl

@[simp] theorem isNull_bool (b : Bool) : (Value.bool b).isNull = false := rfl

@[simp] theorem isNull_object (members : List (String × Value)) :
    (Value.object members).isNull = false := rfl

@[simp] theorem isNull_array (items : List Value) : (Value.array items).isNull = false := rfl

@[simp] theorem isNull_ofU64 (n : UInt64) : (ofU64 n).isNull = false := rfl

@[simp] theorem isNull_ofU32 (n : UInt32) : (ofU32 n).isNull = false := rfl

@[simp] theorem isNull_ofF64 (q : ℚ) : (ofF64 q).isNull = false := rfl

@[simp] theorem nullable_null (decode : Value → Option α) :
    Value.null.nullable decode = some none := rfl

@[simp] theorem nullable_of_not_isNull {decode : Value → Option α} {v : Value}
    (h : ¬ v.isNull = true) : v.nullable decode = (decode v).map some := by
  rw [nullable, if_neg h]

theorem nullable_orNull {encode : α → Value} {decode : Value → Option α}
    (hnull : ∀ a, (encode a).isNull = false) (h : ∀ a, decode (encode a) = some a)
    (o : Option α) : (orNull encode o).nullable decode = some o := by
  cases o with
  | none => rfl
  | some a => simp [orNull, hnull, h]

@[simp] theorem nullable_orNull_string (o : Option String) :
    (orNull .string o).nullable asStr = some o :=
  nullable_orNull isNull_string asStr_string o

/-- What a member that may be left out adds to a lookup. -/
theorem lookup_skipNone_append (encode : α → Value) (o : Option α) (name key : String)
    (members : List (String × Value)) : (skipNone name encode o ++ members).lookup key =
      if key = name then (o.map encode).or (members.lookup key) else members.lookup key := by
  cases o with
  | none => simp [skipNone]
  | some a =>
      by_cases hkey : key = name
      · simp [skipNone, hkey]
      · have hne : (key == name) = false := beq_eq_false_iff_ne.mpr hkey
        simp [skipNone, List.lookup, hkey, hne]

theorem lookup_skipNone (encode : α → Value) (o : Option α) (name key : String) :
    (skipNone name encode o).lookup key = if key = name then o.map encode else none := by
  have happend := lookup_skipNone_append encode o name key []
  rw [List.append_nil] at happend
  simpa using happend

/-- A member that is left out when there is none is read back. -/
theorem optionField_of_get {encode : α → Value} {decode : Value → Option α} {v : Value}
    {key : String} {o : Option α} (hnull : ∀ a, (encode a).isNull = false)
    (h : ∀ a, decode (encode a) = some a) (hget : v.get key = o.map encode) :
    v.optionField key decode = some o := by
  unfold optionField
  rw [hget]
  cases o with
  | none => rfl
  | some a => simp [hnull, h]

theorem isNull_iff (v : Value) : v.isNull = true ↔ v = .null := by
  cases v <;> simp [isNull]

/-- A member that is read as present stands there and is not `null`. -/
theorem optionField_eq_some {decode : Value → Option α} {v : Value} {key : String} {a : α}
    (h : v.optionField key decode = some (some a)) :
    ∃ w, w ≠ .null ∧ decode w = some a := by
  unfold optionField at h
  cases hget : v.get key with
  | none => simp [hget] at h
  | some w =>
      simp only [hget, nullable] at h
      split at h
      · simp at h
      · next hnull =>
          refine ⟨w, fun hw => hnull ((isNull_iff w).mpr hw), ?_⟩
          simpa using h

@[simp] theorem asF64_ofF64 (q : ℚ) : (ofF64 q).asF64 = some q := rfl

@[simp] theorem nullable_orNull_ofF64 (o : Option ℚ) :
    (orNull ofF64 o).nullable asF64 = some o :=
  nullable_orNull isNull_ofF64 asF64_ofF64 o

@[simp] theorem asObject_object (members : List (String × Value)) :
    (Value.object members).asObject = some members := rfl

@[simp] theorem asU64_ofU64 (n : UInt64) : (ofU64 n).asU64 = some n := by
  have h : ((n.toNat : ℕ) : ℤ) < 2 ^ 64 := by exact_mod_cast n.toNat_lt
  simp only [ofU64, asU64, Int.natCast_nonneg, h, and_self, if_true, Int.toNat_natCast,
    UInt64.ofNat_toNat]

@[simp] theorem asU32_ofU32 (n : UInt32) : (ofU32 n).asU32 = some n := by
  have h : ((n.toNat : ℕ) : ℤ) < 2 ^ 32 := by exact_mod_cast n.toNat_lt
  simp only [ofU32, asU32, Int.natCast_nonneg, h, and_self, if_true, Int.toNat_natCast,
    UInt32.ofNat_toNat]

theorem asArray_map {encode : α → Value} {decode : Value → Option α}
    (h : ∀ a, decode (encode a) = some a) (xs : List α) :
    (Value.array (xs.map encode)).asArray decode = some xs := by
  induction xs with
  | nil => rfl
  | cons x xs ih =>
      simp only [asArray, List.map_cons, List.mapM_cons, h] at ih ⊢
      simp [ih]

theorem asArray_isSome {β : Type} (encode : α → Value) (decode : Value → Option β) (xs : List α) :
    ((Value.array (xs.map encode)).asArray decode).isSome = true ↔
      ∀ x ∈ xs, (decode (encode x)).isSome = true := by
  induction xs with
  | nil => simp [asArray]
  | cons x xs ih =>
      rw [List.forall_mem_cons, ← ih]
      simp only [asArray, List.map_cons, List.mapM_cons]
      cases decode (encode x) <;> cases (xs.map encode).mapM decode <;> simp

/-- Items that one party wrote are read by another one at a time. -/
theorem asArray_map_mapM {β : Type} {encode : α → Value} {decode : Value → Option β}
    {f : α → Option β} (h : ∀ a, decode (encode a) = f a) (xs : List α) :
    (Value.array (xs.map encode)).asArray decode = xs.mapM f := by
  induction xs with
  | nil => rfl
  | cons x xs ih =>
      simp only [asArray, List.map_cons, List.mapM_cons, h] at ih ⊢
      rw [ih]

/-- A document that comes back as it was when each item does. -/
theorem map_eq_of_asArray {β : Type} {encode : α → Value} {decode : Value → Option β}
    {rewrite : β → Value} (h : ∀ a b, decode (encode a) = some b → rewrite b = encode a)
    {xs : List α} {ys : List β}
    (hread : (Value.array (xs.map encode)).asArray decode = some ys) :
    ys.map rewrite = xs.map encode := by
  induction xs generalizing ys with
  | nil =>
      cases hread
      rfl
  | cons x xs ih =>
      simp only [asArray, List.map_cons, List.mapM_cons, Option.bind_eq_bind,
        Option.bind_eq_some_iff, Option.pure_def, Option.some.injEq] at hread
      obtain ⟨y, hy, rest, hrest, rfl⟩ := hread
      rw [List.map_cons, List.map_cons, h x y hy, ih hrest]

theorem orNull_eq_of_nullable {β : Type} {encode : α → Value} {decode : Value → Option β}
    {rewrite : β → Value} (hnull : ∀ a, (encode a).isNull = false)
    (h : ∀ a b, decode (encode a) = some b → rewrite b = encode a) {o : Option α} {read : Option β}
    (hread : (orNull encode o).nullable decode = some read) :
    orNull rewrite read = orNull encode o := by
  cases o with
  | none =>
      cases hread
      rfl
  | some a =>
      have hpresent : ¬ (encode a).isNull = true := by simp [hnull]
      rw [orNull, nullable_of_not_isNull hpresent, Option.map_eq_some_iff] at hread
      obtain ⟨b, hb, rfl⟩ := hread
      exact h a b hb

/-- What holds of everything a decoder gives holds of each item of an array it reads. -/
theorem forall_of_asArray {decode : Value → Option α} {P : α → Prop}
    (h : ∀ v a, decode v = some a → P a) {v : Value} {xs : List α}
    (hread : v.asArray decode = some xs) : ∀ x ∈ xs, P x := by
  cases v with
  | array items =>
      induction items generalizing xs with
      | nil =>
          cases hread
          simp
      | cons item items ih =>
          simp only [asArray, List.mapM_cons, Option.bind_eq_bind, Option.bind_eq_some_iff,
            Option.pure_def, Option.some.injEq] at hread
          obtain ⟨a, ha, as, has, rfl⟩ := hread
          exact List.forall_mem_cons.mpr ⟨h item a ha, ih has⟩
  | _ => cases hread

@[simp] theorem asStringMap_ofStringMap (xs : List (String × String)) :
    (ofStringMap xs).asStringMap = some xs := by
  have hmap : (xs.map fun m => (m.1, Value.string m.2)).mapM
      (fun m : String × Value => do pure (m.1, ← m.2.asStr)) = some xs := by
    induction xs with
    | nil => rfl
    | cons x xs ih =>
        rw [List.map_cons, List.mapM_cons, ih]
        rfl
  exact hmap

@[simp] theorem asArray_ofStrings (xs : List String) :
    (ofStrings xs).asArray asStr = some xs := asArray_map asStr_string xs

end Value
end LdpProtocol.JsonValues
