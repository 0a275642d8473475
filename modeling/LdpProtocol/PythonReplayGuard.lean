import LdpProtocol.ReplayDetection
import LdpProtocol.RoundedFloats

/-!
# The Python replay guard

`check` makes room for a new pair before it looks the pair up: on a full guard
it forgets its oldest pair even when the call is a duplicate. Instants are
microseconds, and the seconds between two of them are rounded to a float; the parsing
of timestamps belongs to the standard library. A capacity below zero is left out.
-/
namespace LdpProtocol.PythonReplayGuard
open RecencyCaches RoundedFloats
open ReplayDetection (pairKey)

/-- What `datetime.fromisoformat` reads: a wall clock, and its offset from UTC
unless the text is naive. -/
structure IsoTime where
  wall : ℤ
  utcoffset : Option ℤ

/-- A naive time is taken for UTC. -/
def IsoTime.instant (t : IsoTime) : ℤ := t.wall - t.utcoffset.getD 0

/-- Guards against replayed messages: the remembered keys, oldest first, each with
the clock at which it was put. -/
structure ReplayGuard where
  seen : List (String × ℤ)
  capacity : ℕ
  windowSecs : ℤ
  deriving DecidableEq

/-- One call of `check`, with the clock when it starts and when it remembers. -/
structure Call where
  now : ℤ
  later : ℤ
  messageId : String
  nonce : Option String
  timestamp : String
  deriving DecidableEq

def Call.key (c : Call) : Option String := c.nonce.map (pairKey c.messageId)

def new (capacity : ℕ) (windowSecs : ℤ) : ReplayGuard := ⟨[], capacity, windowSecs⟩

/-- `total_seconds`, the float nearest to a duration. -/
def totalSeconds (micros : ℕ) : ℚ := nearest 53 (micros / 1000000)

/-- `while len(self._seen) >= self._capacity: self._seen.popitem(last=False)`, which
raises on an empty dictionary. -/
def makeRoom (capacity : ℕ) : List (String × ℤ) → Option (List (String × ℤ))
  | [] => if capacity = 0 then none else some []
  | oldest :: rest =>
      if capacity ≤ (oldest :: rest).length then makeRoom capacity rest
      else some (oldest :: rest)

section
variable (fromIsoFormat : String → Option IsoTime)

def timestampError (windowSecs : ℤ) (c : Call) : Option String :=
  match fromIsoFormat c.timestamp with
  | some msgTime =>
      let diff := totalSeconds (c.now - msgTime.instant).natAbs
      if windowSecs < diff then
        some ("Message timestamp too old: " ++ toString (roundEven diff) ++ "s > " ++
          toString windowSecs ++ "s window")
      else none
  | none => none

/-- Check if a message should be accepted: the error string of a rejected one, and
an exception when there is no room to make. -/
def check (g : ReplayGuard) (c : Call) : Except String (Option String) × ReplayGuard :=
  match timestampError fromIsoFormat g.windowSecs c with
  | some reason => (.ok (some reason), g)
  | none =>
      match c.nonce with
      | none => (.ok none, g)
      | some nonce =>
          let key := pairKey c.messageId nonce
          match makeRoom g.capacity g.seen with
          | none => (.error "dictionary is empty", { g with seen := [] })
          | some seen =>
              if key ∈ seen.map Prod.fst then
                (.ok (some "Duplicate message_id + nonce pair"), { g with seen := seen })
              else (.ok none, { g with seen := seen ++ [(key, c.later)] })

def accepts (g : ReplayGuard) (c : Call) : Bool :=
  match (check fromIsoFormat g c).1 with
  | .ok none => true
  | _ => false

/-- The guard after a history. -/
def after (g : ReplayGuard) (calls : List Call) : ReplayGuard :=
  calls.foldl (fun g c => (check fromIsoFormat g c).2) g

/-- The accepted calls of a history, oldest first. -/
def accepted (g : ReplayGuard) : List Call → List Call
  | [] => []
  | c :: calls =>
      let rest := accepted (check fromIsoFormat g c).2 calls
      if accepts fromIsoFormat g c then c :: rest else rest

/-- The keys of the nonce-bearing ones among some calls. -/
def keys (calls : List Call) : List String := calls.filterMap Call.key

/-- What is left of the remembered keys when there is room for one more. -/
def ReplayGuard.room (g : ReplayGuard) : List (String × ℤ) :=
  g.seen.drop (g.seen.length + 1 - g.capacity)

theorem makeRoom_eq {capacity : ℕ} (hc : 0 < capacity) (seen : List (String × ℤ)) :
    makeRoom capacity seen = some (seen.drop (seen.length + 1 - capacity)) := by
  induction seen with
  | nil =>
      rw [makeRoom, if_neg (by omega), List.drop_nil]
  | cons oldest rest ih =>
      rw [makeRoom, List.length_cons]
      split
      · next hfull =>
          have hdrop : rest.length + 1 + 1 - capacity = rest.length + 1 - capacity + 1 := by
            omega
          rw [ih, hdrop, List.drop_succ_cons]
      · next hroom =>
          have hdrop : rest.length + 1 + 1 - capacity = 0 := by omega
          rw [hdrop, List.drop_zero]

theorem room_of_lt {g : ReplayGuard} (h : g.seen.length < g.capacity) : g.room = g.seen := by
  have hdrop : g.seen.length + 1 - g.capacity = 0 := by omega
  rw [ReplayGuard.room, hdrop, List.drop_zero]

theorem room_of_full {g : ReplayGuard} (h : g.seen.length = g.capacity) :
    g.room = g.seen.tail := by
  have hdrop : g.seen.length + 1 - g.capacity = 1 := by omega
  rw [ReplayGuard.room, hdrop, List.drop_one]

variable {fromIsoFormat}

/-- What one call does: it is stale, bears no nonce, or makes room and then repeats
a key that is still held or puts a new one. -/
theorem check_cases (fromIsoFormat : String → Option IsoTime) {g : ReplayGuard}
    (hc : 0 < g.capacity) (c : Call) :
    (∃ reason, timestampError fromIsoFormat g.windowSecs c = some reason ∧
      check fromIsoFormat g c = (.ok (some reason), g)) ∨
    (timestampError fromIsoFormat g.windowSecs c = none ∧
      ((c.key = none ∧ check fromIsoFormat g c = (.ok none, g)) ∨
        (∃ key, c.key = some key ∧ key ∈ g.room.map Prod.fst ∧ check fromIsoFormat g c =
          (.ok (some "Duplicate message_id + nonce pair"), { g with seen := g.room })) ∨
        (∃ key, c.key = some key ∧ key ∉ g.room.map Prod.fst ∧ check fromIsoFormat g c =
          (.ok none, { g with seen := g.room ++ [(key, c.later)] })))) := by
  have hroom : makeRoom g.capacity g.seen = some g.room := makeRoom_eq hc g.seen
  unfold check Call.key
  cases hstamp : timestampError fromIsoFormat g.windowSecs c with
  | some reason => exact .inl ⟨reason, rfl, rfl⟩
  | none =>
      refine .inr ⟨rfl, ?_⟩
      cases hnonce : c.nonce with
      | none => exact .inl ⟨rfl, rfl⟩
      | some nonce =>
          simp only [hroom]
          by_cases hheld : pairKey c.messageId nonce ∈ g.room.map Prod.fst
          · exact .inr (.inl ⟨_, rfl, hheld, by rw [if_pos hheld]⟩)
          · exact .inr (.inr ⟨_, rfl, hheld, by rw [if_neg hheld]⟩)

theorem check_limits (fromIsoFormat : String → Option IsoTime) {g : ReplayGuard}
    (hc : 0 < g.capacity) (c : Call) :
    (check fromIsoFormat g c).2.capacity = g.capacity ∧
      (check fromIsoFormat g c).2.windowSecs = g.windowSecs := by
  rcases check_cases fromIsoFormat hc c with ⟨_, _, hcheck⟩ |
    ⟨_, ⟨_, hcheck⟩ | ⟨_, _, _, hcheck⟩ | ⟨_, _, _, hcheck⟩⟩ <;>
    exact ⟨by rw [hcheck], by rw [hcheck]⟩

theorem after_concat (g : ReplayGuard) (calls : List Call) (c : Call) :
    after fromIsoFormat g (calls ++ [c]) =
      (check fromIsoFormat (after fromIsoFormat g calls) c).2 := by
  simp [after]

theorem after_limits (fromIsoFormat : String → Option IsoTime) {capacity : ℕ}
    (hc : 0 < capacity) (windowSecs : ℤ) (calls : List Call) :
    (after fromIsoFormat (new capacity windowSecs) calls).capacity = capacity ∧
      (after fromIsoFormat (new capacity windowSecs) calls).windowSecs = windowSecs := by
  induction calls using List.reverseRecOn with
  | nil => exact ⟨rfl, rfl⟩
  | append_singleton calls c ih =>
      rw [← ih.1] at hc
      have hlimits := check_limits fromIsoFormat hc c
      rw [after_concat, hlimits.1, hlimits.2]
      exact ih

theorem accepted_append (g : ReplayGuard) (calls more : List Call) :
    accepted fromIsoFormat g (calls ++ more) = accepted fromIsoFormat g calls ++
      accepted fromIsoFormat (after fromIsoFormat g calls) more := by
  induction calls generalizing g with
  | nil => rfl
  | cons c calls ih =>
      have hafter : after fromIsoFormat g (c :: calls) =
        after fromIsoFormat (check fromIsoFormat g c).2 calls := rfl
      simp only [List.cons_append, accepted, ih, hafter]
      split <;> rfl

theorem accepted_concat (g : ReplayGuard) (calls : List Call) (c : Call) :
    accepted fromIsoFormat g (calls ++ [c]) = accepted fromIsoFormat g calls ++
      if accepts fromIsoFormat (after fromIsoFormat g calls) c then [c] else [] := by
  rw [accepted_append]
  simp only [accepted]

/-- The call repeats the pair of an earlier one. -/
def SamePair (a c : Call) : Prop :=
  a.nonce.isSome = true ∧ a.messageId = c.messageId ∧ a.nonce = c.nonce

/-- The call repeats the pair of an accepted one, after which fewer nonce-bearing
calls than `n` were accepted. -/
def Repeats (n : ℕ) (acceptedCalls : List Call) (c : Call) : Prop :=
  ∃ earlier a later, acceptedCalls = earlier ++ a :: later ∧ SamePair a c ∧
    (keys later).length < n

/-- A repeated pair is rejected unless as many others as the guard holds were
accepted since, a rejected call leaves the remembered keys as they were, and so
no rejected calls make a pair acceptable again. -/
structure Guards (fromIsoFormat : String → Option IsoTime) (g : ReplayGuard)
    (calls : List Call) : Prop where
  rejects : ∀ before c behind, calls = before ++ c :: behind →
    Repeats g.capacity (accepted fromIsoFormat g before) c →
    accepts fromIsoFormat (after fromIsoFormat g before) c = false
  unchanged : ∀ before c behind, calls = before ++ c :: behind →
    accepts fromIsoFormat (after fromIsoFormat g before) c = false →
    (check fromIsoFormat (after fromIsoFormat g before) c).2.seen =
      (after fromIsoFormat g before).seen
  stays : ∀ before rejected c behind, calls = before ++ rejected ++ c :: behind →
    accepted fromIsoFormat (after fromIsoFormat g before) rejected = [] →
    Repeats g.capacity (accepted fromIsoFormat g before) c →
    accepts fromIsoFormat (after fromIsoFormat g (before ++ rejected)) c = false

/-- The guard is full, the call is fresh, and its key is held beside the oldest one
or its pair is that of the oldest call remembered. -/
def SpillsOnDuplicate (fromIsoFormat : String → Option IsoTime) (g : ReplayGuard)
    (acceptedCalls : List Call) (c : Call) : Prop :=
  g.seen.length = g.capacity ∧ timestampError fromIsoFormat g.windowSecs c = none ∧
  ((∃ key, c.key = some key ∧ key ∈ g.seen.tail.map Prod.fst) ∨
    ∃ earlier a later, acceptedCalls = earlier ++ a :: later ∧ SamePair a c ∧
      (keys later).length + 1 = g.capacity)

theorem SamePair.key {a c : Call} (h : SamePair a c) :
    ∃ key, c.key = some key ∧ a.key = some key := by
  obtain ⟨hbears, hid, hnonce⟩ := h
  obtain ⟨nonce, ha⟩ := Option.isSome_iff_exists.mp hbears
  refine ⟨pairKey c.messageId nonce, ?_, ?_⟩
  · simp [Call.key, ← hnonce, ha]
  · simp [Call.key, ha, hid]

theorem Repeats.key {n : ℕ} {acceptedCalls : List Call} {c : Call}
    (h : Repeats n acceptedCalls c) :
    ∃ key, c.key = some key ∧ key ∈ lastKeys n (keys acceptedCalls) := by
  obtain ⟨earlier, a, later, hsplit, hsame, hlen⟩ := h
  obtain ⟨key, hkey, hakey⟩ := hsame.key
  exact ⟨key, hkey, mem_lastKeys_filterMap_iff.mpr ⟨earlier, a, later, hsplit, hakey, hlen⟩⟩

/-- The guard holds the keys of the last accepted calls, as many as fit. -/
def Remembers (g : ReplayGuard) (acceptedCalls : List Call) : Prop :=
  (g.seen.map Prod.fst).reverse = lastKeys g.capacity (keys acceptedCalls)

namespace Remembers
variable {g : ReplayGuard} {acceptedCalls : List Call} (h : Remembers g acceptedCalls)
include h

theorem length_le : g.seen.length ≤ g.capacity := by
  have hlen := congrArg List.length h
  rw [List.length_reverse, List.length_map] at hlen
  rw [hlen]
  exact List.length_take_le _ _

theorem mem_iff (key : String) :
    key ∈ g.seen.map Prod.fst ↔ key ∈ lastKeys g.capacity (keys acceptedCalls) := by
  rw [← h, List.mem_reverse]

/-- All but the oldest key of a full guard. -/
theorem tail_of_full (hfull : g.seen.length = g.capacity) :
    (g.seen.tail.map Prod.fst).reverse = lastKeys (g.capacity - 1) (keys acceptedCalls) := by
  have hlen : (lastKeys g.capacity (keys acceptedCalls)).length = g.capacity := by
    rw [← h, List.length_reverse, List.length_map, hfull]
  calc
    (g.seen.tail.map Prod.fst).reverse = (g.seen.map Prod.fst).reverse.dropLast := by
      rw [List.map_tail, List.dropLast_reverse]
    _ = (lastKeys g.capacity (keys acceptedCalls)).take (g.capacity - 1) := by
      rw [h, List.dropLast_eq_take, hlen]
    _ = lastKeys (g.capacity - 1) (keys acceptedCalls) := by
      rw [lastKeys, lastKeys, List.take_take, Nat.min_eq_left (Nat.sub_le _ _)]

/-- A new key goes behind what there is room for. -/
theorem put (hc : 0 < g.capacity) {c : Call} {key : String} (hkey : c.key = some key) (at_ : ℤ) :
    Remembers { g with seen := g.room ++ [(key, at_)] } (acceptedCalls ++ [c]) := by
  have hkeys : keys (acceptedCalls ++ [c]) = keys acceptedCalls ++ [key] := by
    simp [keys, hkey]
  have hroom : (g.room.map Prod.fst).reverse = lastKeys (g.capacity - 1) (keys acceptedCalls) := by
    rcases Nat.lt_or_eq_of_le h.length_le with hlt | hfull
    · have hlen := congrArg List.length h
      rw [List.length_reverse, List.length_map, lastKeys, List.length_take,
        List.length_reverse] at hlen
      have hall : (keys acceptedCalls).length ≤ g.capacity - 1 := by omega
      rw [room_of_lt hlt, h, lastKeys, lastKeys, List.take_of_length_le (by simp; omega),
        List.take_of_length_le (by simpa using hall)]
    · rw [room_of_full hfull, h.tail_of_full hfull]
  obtain ⟨n, hn⟩ : ∃ n, g.capacity = n + 1 := ⟨g.capacity - 1, by omega⟩
  unfold Remembers
  rw [hkeys, lastKeys_concat hc, List.map_append, List.reverse_append, hroom, hn]
  simp [lastKeys, List.take_take]

/-- A call that repeats a remembered pair repeats the oldest or a key beside it. -/
theorem repeats_of_full (hfull : g.seen.length = g.capacity) {c : Call}
    (hrepeats : Repeats g.capacity acceptedCalls c) :
    (∃ key, c.key = some key ∧ key ∈ g.seen.tail.map Prod.fst) ∨
      ∃ earlier a later, acceptedCalls = earlier ++ a :: later ∧ SamePair a c ∧
        (keys later).length + 1 = g.capacity := by
  obtain ⟨earlier, a, later, hsplit, hsame, hlen⟩ := hrepeats
  by_cases holdest : (keys later).length + 1 = g.capacity
  · exact .inr ⟨earlier, a, later, hsplit, hsame, holdest⟩
  · have hshort : Repeats (g.capacity - 1) acceptedCalls c :=
      ⟨earlier, a, later, hsplit, hsame, by omega⟩
    obtain ⟨key, hkey, hmem⟩ := hshort.key
    refine .inl ⟨key, hkey, ?_⟩
    rw [← List.mem_reverse, h.tail_of_full hfull]
    exact hmem

/-- A step does what is asked of it unless it spills on a duplicate. -/
theorem step_iff (fromIsoFormat : String → Option IsoTime) (hc : 0 < g.capacity) (c : Call) :
    (Repeats g.capacity acceptedCalls c → accepts fromIsoFormat g c = false) ∧
      (accepts fromIsoFormat g c = false → (check fromIsoFormat g c).2.seen = g.seen) ↔
    ¬ SpillsOnDuplicate fromIsoFormat g acceptedCalls c := by
  have hlt_of_not_full : ¬ g.seen.length = g.capacity → g.seen.length < g.capacity :=
    fun hne => lt_of_le_of_ne h.length_le hne
  rcases check_cases fromIsoFormat hc c with ⟨reason, hstamp, hcheck⟩ |
    ⟨hstamp, ⟨hkey, hcheck⟩ | ⟨key, hkey, hheld, hcheck⟩ | ⟨key, hkey, habsent, hcheck⟩⟩
  · simp [SpillsOnDuplicate, accepts, hcheck, hstamp]
  · have hfree : ¬ Repeats g.capacity acceptedCalls c := by
      intro hrepeats
      obtain ⟨key, hsome, _⟩ := hrepeats.key
      rw [hkey] at hsome
      cases hsome
    have hother : ∀ a, ¬ SamePair a c := by
      intro a hsame
      obtain ⟨key, hsome, _⟩ := hsame.key
      rw [hkey] at hsome
      cases hsome
    simp [SpillsOnDuplicate, accepts, hcheck, hkey, hfree, hother]
  · have hrejected : accepts fromIsoFormat g c = false := by simp [accepts, hcheck]
    rw [hcheck]
    by_cases hfull : g.seen.length = g.capacity
    · rw [room_of_full hfull] at hheld ⊢
      have hspill : SpillsOnDuplicate fromIsoFormat g acceptedCalls c :=
        ⟨hfull, hstamp, .inl ⟨key, hkey, hheld⟩⟩
      refine ⟨fun hstands => absurd (hstands.2 hrejected) ?_, absurd hspill⟩
      intro htail
      have hlen := congrArg List.length htail
      rw [List.length_tail] at hlen
      omega
    · rw [room_of_lt (hlt_of_not_full hfull)]
      exact ⟨fun _ hspill => hfull hspill.1, fun _ => ⟨fun _ => hrejected, fun _ => rfl⟩⟩
  · have haccepts : accepts fromIsoFormat g c = true := by simp [accepts, hcheck]
    by_cases hfull : g.seen.length = g.capacity
    · rw [room_of_full hfull] at habsent
      constructor
      · intro hstands hspill
        obtain ⟨_, _, ⟨other, hother, hmem⟩ | ⟨earlier, a, later, hsplit, hsame, hlen⟩⟩ := hspill
        · rw [hkey] at hother
          cases hother
          exact habsent hmem
        · have hrejects := hstands.1 ⟨earlier, a, later, hsplit, hsame, by omega⟩
          rw [haccepts] at hrejects
          cases hrejects
      · intro hspares
        refine ⟨fun hrepeats => ?_, fun hfalse => ?_⟩
        · exact absurd ⟨hfull, hstamp, h.repeats_of_full hfull hrepeats⟩ hspares
        · rw [haccepts] at hfalse
          cases hfalse
    · rw [room_of_lt (hlt_of_not_full hfull), h.mem_iff] at habsent
      refine ⟨fun _ hspill => hfull hspill.1, fun _ => ⟨fun hrepeats => ?_, fun hfalse => ?_⟩⟩
      · obtain ⟨other, hother, hmem⟩ := hrepeats.key
        rw [hkey] at hother
        cases hother
        exact absurd hmem habsent
      · rw [haccepts] at hfalse
        cases hfalse

theorem step {fromIsoFormat : String → Option IsoTime} (hc : 0 < g.capacity) {c : Call}
    (hspares : ¬ SpillsOnDuplicate fromIsoFormat g acceptedCalls c) :
    Remembers (check fromIsoFormat g c).2
      (acceptedCalls ++ if accepts fromIsoFormat g c then [c] else []) := by
  rcases check_cases fromIsoFormat hc c with ⟨reason, _, hcheck⟩ |
    ⟨hstamp, ⟨hkey, hcheck⟩ | ⟨key, hkey, hheld, hcheck⟩ | ⟨key, hkey, habsent, hcheck⟩⟩
  · simpa [accepts, hcheck] using h
  · have hkeys : keys (acceptedCalls ++ [c]) = keys acceptedCalls := by simp [keys, hkey]
    simpa [accepts, hcheck, Remembers, hkeys] using h
  · have hlt : g.seen.length < g.capacity := by
      refine lt_of_le_of_ne h.length_le fun hfull => hspares ⟨hfull, hstamp, .inl ⟨key, hkey, ?_⟩⟩
      rwa [room_of_full hfull] at hheld
    rw [room_of_lt hlt] at hcheck
    simpa [accepts, hcheck] using h
  · simpa [accepts, hcheck] using h.put hc hkey c.later

end Remembers

/-- As long as no duplicate spills, the guard holds the last accepted keys. -/
theorem remembers_of_spares {capacity : ℕ} (hc : 0 < capacity) (windowSecs : ℤ)
    {calls : List Call} (hspares : ∀ before c behind, calls = before ++ c :: behind →
      ¬ SpillsOnDuplicate fromIsoFormat (after fromIsoFormat (new capacity windowSecs) before)
        (accepted fromIsoFormat (new capacity windowSecs) before) c) :
    Remembers (after fromIsoFormat (new capacity windowSecs) calls)
      (accepted fromIsoFormat (new capacity windowSecs) calls) := by
  induction calls using List.reverseRecOn with
  | nil => simp [Remembers, after, new, accepted, keys, lastKeys]
  | append_singleton calls c ih =>
      have hsplit := at_every_concat.mp hspares
      have hlimits := after_limits fromIsoFormat hc windowSecs calls
      rw [after_concat, accepted_concat]
      exact (ih hsplit.1).step (by rw [hlimits.1]; exact hc) hsplit.2

/-- No rejected call adds to what was accepted, so what holds after each call holds
after any number of rejected ones. -/
theorem guards_iff_steps (fromIsoFormat : String → Option IsoTime) (g : ReplayGuard)
    (calls : List Call) : Guards fromIsoFormat g calls ↔
      ∀ before c behind, calls = before ++ c :: behind →
        (Repeats g.capacity (accepted fromIsoFormat g before) c →
          accepts fromIsoFormat (after fromIsoFormat g before) c = false) ∧
        (accepts fromIsoFormat (after fromIsoFormat g before) c = false →
          (check fromIsoFormat (after fromIsoFormat g before) c).2.seen =
            (after fromIsoFormat g before).seen) := by
  constructor
  · intro h before c behind hsplit
    exact ⟨h.rejects before c behind hsplit, h.unchanged before c behind hsplit⟩
  · intro h
    refine ⟨fun before c behind hsplit => (h before c behind hsplit).1,
      fun before c behind hsplit => (h before c behind hsplit).2, ?_⟩
    intro before rejected c behind hsplit hrejected hrepeats
    apply (h (before ++ rejected) c behind hsplit).1
    rw [accepted_append, hrejected, List.append_nil]
    exact hrepeats

/-- A history goes as it should exactly when no duplicate spills: no fresh call
comes to a full guard with a key held beside the oldest one, or with the pair of
the oldest call remembered. -/
theorem guards_iff (fromIsoFormat : String → Option IsoTime) {capacity : ℕ} (hc : 1 ≤ capacity)
    (windowSecs : ℤ) (calls : List Call) :
    Guards fromIsoFormat (new capacity windowSecs) calls ↔
      ∀ before c behind, calls = before ++ c :: behind →
        ¬ SpillsOnDuplicate fromIsoFormat (after fromIsoFormat (new capacity windowSecs) before)
          (accepted fromIsoFormat (new capacity windowSecs) before) c := by
  rw [guards_iff_steps]
  induction calls using List.reverseRecOn with
  | nil =>
      constructor <;>
      · intro _ before c behind h
        simp at h
  | append_singleton calls c ih =>
      rw [at_every_concat, at_every_concat, ih]
      apply and_congr_right
      intro hspares
      have hlimits := after_limits fromIsoFormat hc windowSecs calls
      have hiff := (remembers_of_spares hc windowSecs hspares).step_iff fromIsoFormat
        (by rw [hlimits.1]; exact hc) c
      rw [hlimits.1] at hiff
      exact hiff

end

/-- A guard for two pairs is filled, and a duplicate of the newer pair comes before
the older one again. -/
def filledUp : List Call :=
  [⟨0, 0, "m1", some "n1", "t"⟩, ⟨0, 0, "m2", some "n2", "t"⟩, ⟨0, 0, "m2", some "n2", "t"⟩,
    ⟨0, 0, "m1", some "n1", "t"⟩]

/-- Every text is the same instant. -/
def oneInstant : String → Option IsoTime := fun _ => some ⟨0, none⟩

/-- The duplicate is rejected and the older pair is accepted again. -/
theorem duplicate_spills_oldest : ¬ ∀ (fromIsoFormat : String → Option IsoTime) (capacity : ℕ)
    (windowSecs : ℤ) (calls : List Call), 1 ≤ capacity →
    Guards fromIsoFormat (new capacity windowSecs) calls := by
  intro h
  have hguards := h oneInstant 2 60 filledUp (by decide)
  have hrejected := hguards.stays (filledUp.take 2) [⟨0, 0, "m2", some "n2", "t"⟩]
    ⟨0, 0, "m1", some "n1", "t"⟩ [] rfl (by decide +kernel)
    ⟨[], ⟨0, 0, "m1", some "n1", "t"⟩, [⟨0, 0, "m2", some "n2", "t"⟩], by decide +kernel,
      ⟨rfl, rfl, rfl⟩, by decide⟩
  revert hrejected
  decide +kernel

/-- A guard for two pairs that is not full when the duplicate comes. -/
theorem guards_iff_one_pair :
    Guards oneInstant (new 2 60) [⟨0, 0, "m1", some "n1", "t"⟩, ⟨0, 0, "m1", some "n1", "t"⟩] := by
  apply (guards_iff oneInstant (by decide) 60 _).mpr
  intro before c behind hsplit hspill
  have hlen := congrArg List.length hsplit
  match before, hspill.1 with
  | [], hfull => exact absurd hfull (by decide)
  | [a], hfull =>
      simp only [List.singleton_append, List.cons.injEq] at hsplit
      rw [← hsplit.1] at hfull
      exact absurd hfull (by decide +kernel)
  | a :: b :: more, _ =>
      simp only [List.length_append, List.length_cons, List.length_nil] at hlen
      omega

end LdpProtocol.PythonReplayGuard
