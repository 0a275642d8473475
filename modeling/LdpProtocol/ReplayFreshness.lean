import LdpProtocol.PythonReplayGuard

/-!
# How old a message may be

Both guards let a timestamp pass that they cannot read, and reject one that is too far
from the clock. The Rust guard reads only timestamps with an offset and compares whole
seconds; the Python guard takes a timestamp without one for UTC and compares the
seconds as a float, in which microseconds are told apart below 2^34 seconds.
-/
namespace LdpProtocol.ReplayFreshness
open RecencyCaches RoundedFloats
open PythonReplayGuard (IsoTime totalSeconds)

section Rust
open ReplayDetection
variable {L : LruCache String} {parseRfc3339 : String → Option ℤ} {g : ReplayGuard L} {c : Call}

/-- The nanoseconds between the clock and the timestamp, if that is read. -/
def ageNanos (parseRfc3339 : String → Option ℤ) (c : Call) : Option ℕ :=
  (parseRfc3339 c.timestamp).map fun t => (c.now - t).natAbs

theorem ageSecs_eq (now t : ℤ) : ageSecs now t = (now - t).natAbs / 1000000000 := by
  unfold ageSecs numSeconds
  rw [Int.natAbs_tdiv]
  rfl

/-- Less than a second more than the window is not too old. -/
theorem timestampError_eq_none_iff {windowSecs : ℕ} :
    timestampError parseRfc3339 windowSecs c = none ↔
      ∀ age, ageNanos parseRfc3339 c = some age → age < (windowSecs + 1) * 1000000000 := by
  unfold timestampError ageNanos
  cases parseRfc3339 c.timestamp with
  | none => simp
  | some t =>
      simp only [ageSecs_eq, Option.map_some, Option.some.injEq, forall_eq']
      constructor
      · intro h
        split at h
        · cases h
        · omega
      · intro h
        rw [if_neg (by omega)]

/-- The pair of the call is in the cache. -/
def Held (g : ReplayGuard L) (c : Call) : Prop :=
  ∃ key, c.key = some key ∧ L.contains g.seen key = true

theorem accepts_iff_fresh : accepts parseRfc3339 g c = true ↔
    (∀ age, ageNanos parseRfc3339 c = some age → age < (g.windowSecs + 1) * 1000000000) ∧
      ¬ Held g c := by
  rw [accepts_iff, timestampError_eq_none_iff]
  simp [Held]

/-- Within the window only a repeated pair is rejected. -/
theorem accepts_iff_of_within
    (h : ∀ age, ageNanos parseRfc3339 c = some age → age ≤ g.windowSecs * 1000000000) :
    accepts parseRfc3339 g c = true ↔ ¬ Held g c := by
  rw [accepts_iff_fresh]
  refine and_iff_right ?_
  intro age hage
  have := h age hage
  omega

end Rust

section Float
variable {age : ℕ} {windowSecs : ℤ}

/-- Rounding takes no duration between two dates above a window it does not exceed. -/
theorem totalSeconds_le (hdated : age < 2 ^ 39 * 1000000)
    (h : (age : ℤ) ≤ windowSecs * 1000000) : totalSeconds age ≤ windowSecs := by
  have hage : (age : ℚ) ≤ windowSecs * 1000000 := by exact_mod_cast h
  have hlimit : (age : ℚ) < 2 ^ 39 * 1000000 := by exact_mod_cast hdated
  apply nearest_le 53 (by positivity)
  · rw [div_lt_iff₀ (by norm_num)]
    linarith
  · rw [div_le_iff₀ (by norm_num)]
    exact hage

/-- Nor does it take one below a window that is exceeded by a second. -/
theorem lt_totalSeconds (hdated : age < 2 ^ 39 * 1000000)
    (h : (windowSecs + 1) * 1000000 ≤ (age : ℤ)) : windowSecs < totalSeconds age := by
  have hage : ((windowSecs : ℚ) + 1) * 1000000 ≤ age := by exact_mod_cast h
  have hlimit : (age : ℚ) < 2 ^ 39 * 1000000 := by exact_mod_cast hdated
  have hround : ((windowSecs + 1 : ℤ) : ℚ) ≤ totalSeconds age := by
    apply le_nearest 53 (by positivity)
    · rw [div_lt_iff₀ (by norm_num)]
      linarith
    · rw [le_div_iff₀ (by norm_num)]
      push_cast
      exact hage
  push_cast at hround
  linarith

/-- Below 2^34 seconds half the distance between floats is less than a microsecond. -/
theorem le_of_totalSeconds_le (hwindow : windowSecs < 2 ^ 34)
    (h : totalSeconds age ≤ windowSecs) : (age : ℤ) ≤ windowSecs * 1000000 := by
  by_contra hover
  have hage : (windowSecs : ℚ) * 1000000 + 1 ≤ age := by exact_mod_cast (by omega :
    windowSecs * 1000000 + 1 ≤ (age : ℤ))
  have hlast : (windowSecs : ℚ) + 1 ≤ 2 ^ 34 := by exact_mod_cast hwindow
  apply absurd h
  rw [not_le]
  unfold totalSeconds
  rcases lt_or_ge ((age : ℚ) / 1000000) (2 ^ 34) with hsmall | hlarge
  · have hdiv : (windowSecs : ℚ) + 1 / 1000000 ≤ age / 1000000 := by
      rw [le_div_iff₀ (by norm_num)]
      linarith
    apply lt_nearest 53 (by positivity) (k := 34)
    · exact_mod_cast hsmall
    · norm_num
      linarith
  · have hpos : (0 : ℚ) < age / 1000000 := by linarith
    have hround := mul_le_nearest 53 hpos
    norm_num at hround hlarge
    linarith

end Float

section Python
variable {fromIsoFormat : String → Option IsoTime} {g : PythonReplayGuard.ReplayGuard}
  {c : PythonReplayGuard.Call}

/-- The microseconds between the clock and the timestamp, if that is read. -/
def ageMicros (fromIsoFormat : String → Option IsoTime) (c : PythonReplayGuard.Call) : Option ℕ :=
  (fromIsoFormat c.timestamp).map fun t => (c.now - t.instant).natAbs

/-- No two dates are 2^39 seconds apart. -/
def Dated (fromIsoFormat : String → Option IsoTime) (c : PythonReplayGuard.Call) : Prop :=
  ∀ age, ageMicros fromIsoFormat c = some age → age < 2 ^ 39 * 1000000

theorem call_timestampError_eq_none_iff {windowSecs : ℤ} :
    PythonReplayGuard.timestampError fromIsoFormat windowSecs c = none ↔
      ∀ age, ageMicros fromIsoFormat c = some age → totalSeconds age ≤ windowSecs := by
  unfold PythonReplayGuard.timestampError ageMicros
  cases fromIsoFormat c.timestamp with
  | none => simp
  | some t =>
      simp only [Option.map_some, Option.some.injEq, forall_eq']
      constructor
      · intro h
        split at h
        · cases h
        · next hfresh => exact not_lt.mp hfresh
      · intro h
        rw [if_neg (not_lt.mpr h)]

/-- The pair of the call is held when there is room for another one, or there is no
room to make. -/
def Blocked (g : PythonReplayGuard.ReplayGuard) (c : PythonReplayGuard.Call) : Prop :=
  ∃ key, c.key = some key ∧ (g.capacity = 0 ∨ key ∈ g.room.map Prod.fst)

theorem makeRoom_zero (seen : List (String × ℤ)) : PythonReplayGuard.makeRoom 0 seen = none := by
  induction seen with
  | nil => rfl
  | cons oldest rest ih =>
      rw [PythonReplayGuard.makeRoom, if_pos (Nat.zero_le _)]
      exact ih

theorem call_accepts_iff_fresh : PythonReplayGuard.accepts fromIsoFormat g c = true ↔
    (∀ age, ageMicros fromIsoFormat c = some age → totalSeconds age ≤ g.windowSecs) ∧
      ¬ Blocked g c := by
  rw [← call_timestampError_eq_none_iff]
  unfold PythonReplayGuard.accepts Blocked
  rcases Nat.eq_zero_or_pos g.capacity with hc | hc
  · unfold PythonReplayGuard.check PythonReplayGuard.Call.key
    rw [hc]
    cases PythonReplayGuard.timestampError fromIsoFormat g.windowSecs c with
    | some reason => simp
    | none =>
        cases c.nonce with
        | none => simp
        | some nonce => simp [makeRoom_zero]
  · rcases PythonReplayGuard.check_cases fromIsoFormat hc c with ⟨reason, hstamp, hcheck⟩ |
      ⟨hstamp, ⟨hkey, hcheck⟩ | ⟨key, hkey, hheld, hcheck⟩ | ⟨key, hkey, habsent, hcheck⟩⟩
    · simp [hcheck, hstamp]
    · simp [hcheck, hstamp, hkey]
    · simp only [hcheck, hstamp, hkey, Option.some.injEq, exists_eq_left', true_and]
      simp only [Bool.false_eq_true, false_iff, not_not]
      exact .inr hheld
    · simp only [hcheck, hstamp, hkey, Option.some.injEq, exists_eq_left', true_and]
      simp only [true_iff, not_or]
      exact ⟨by omega, habsent⟩

theorem call_accepts_iff_of_within (hdated : Dated fromIsoFormat c)
    (h : ∀ age, ageMicros fromIsoFormat c = some age → (age : ℤ) ≤ g.windowSecs * 1000000) :
    PythonReplayGuard.accepts fromIsoFormat g c = true ↔ ¬ Blocked g c := by
  rw [call_accepts_iff_fresh]
  exact and_iff_right fun age hage => totalSeconds_le (hdated age hage) (h age hage)

end Python

section Agreement
variable {L : LruCache String} {parseRfc3339 : String → Option ℤ}
  {fromIsoFormat : String → Option IsoTime} {g : ReplayDetection.ReplayGuard L}
  {g' : PythonReplayGuard.ReplayGuard} {c : ReplayDetection.Call} {c' : PythonReplayGuard.Call}

/-- One message is checked by both guards at one moment, and both read the same
instant or none: microseconds are what Python keeps of it. -/
structure SameReading (parseRfc3339 : String → Option ℤ)
    (fromIsoFormat : String → Option IsoTime) (c : ReplayDetection.Call)
    (c' : PythonReplayGuard.Call) : Prop where
  now : c'.now = c.now / 1000
  read : (fromIsoFormat c'.timestamp).map IsoTime.instant =
    (parseRfc3339 c.timestamp).map (· / 1000)

/-- Cutting both instants down to microseconds does not take a duration across a
whole number of them. -/
theorem natAbs_micros {now t : ℤ} {n : ℕ}
    (h : (now - t).natAbs ≤ n * 1000000000 ∨ (n + 1) * 1000000000 ≤ (now - t).natAbs) :
    (now - t).natAbs < (n + 1) * 1000000000 ∧ (now / 1000 - t / 1000).natAbs ≤ n * 1000000 ∨
      (n + 1) * 1000000000 ≤ (now - t).natAbs ∧
        (n + 1) * 1000000 ≤ (now / 1000 - t / 1000).natAbs := by
  omega

/-- Where no age is between the window and a second more, both guards find the same
messages fresh. -/
theorem SameReading.fresh_iff (h : SameReading parseRfc3339 fromIsoFormat c c')
    (hdated : Dated fromIsoFormat c') {n : ℕ}
    (hage : ∀ age, ageNanos parseRfc3339 c = some age →
      age ≤ n * 1000000000 ∨ (n + 1) * 1000000000 ≤ age) :
    (∀ age, ageNanos parseRfc3339 c = some age → age < (n + 1) * 1000000000) ↔
      ∀ age, ageMicros fromIsoFormat c' = some age → totalSeconds age ≤ (n : ℤ) := by
  have hread := h.read
  unfold Dated at hdated
  unfold ageNanos at *
  unfold ageMicros at *
  cases ht : parseRfc3339 c.timestamp with
  | none =>
      rw [ht, Option.map_none, Option.map_eq_none_iff] at hread
      simp [hread]
  | some t =>
      rw [ht] at hread hage
      obtain ⟨t', ht', hinstant⟩ := Option.map_eq_some_iff.mp hread
      simp only [ht', Option.map_some, Option.some.injEq, forall_eq', hinstant, h.now] at *
      rcases natAbs_micros hage with ⟨hfresh, hmicros⟩ | ⟨hstale, hmicros⟩
      · exact iff_of_true hfresh (totalSeconds_le hdated (by exact_mod_cast hmicros))
      · have hlt : (n : ℤ) < totalSeconds _ := lt_totalSeconds hdated (by exact_mod_cast hmicros)
        exact iff_of_false (by omega) (not_le.mpr hlt)

/-- Guards with one window that hold the same pair decide the same. -/
theorem SameReading.accepts_eq (h : SameReading parseRfc3339 fromIsoFormat c c')
    (hdated : Dated fromIsoFormat c') (hwindow : g'.windowSecs = g.windowSecs)
    (hheld : Held g c ↔ Blocked g' c')
    (hage : ∀ age, ageNanos parseRfc3339 c = some age →
      age ≤ g.windowSecs * 1000000000 ∨ (g.windowSecs + 1) * 1000000000 ≤ age) :
    ReplayDetection.accepts parseRfc3339 g c =
      PythonReplayGuard.accepts fromIsoFormat g' c' := by
  rw [Bool.eq_iff_iff, accepts_iff_fresh, call_accepts_iff_fresh, hheld, h.fresh_iff hdated hage,
    hwindow]

end Agreement

/-- What a guard accepts is not read or not too old: at most the window away from the
clock for the Python guard, up to the rounding of windows from 2^34 seconds on, and less
than a second more for the Rust guard. What is not read or within the window is rejected
only for its pair. Apart from that second the guards decide the same of what they read
alike. -/
theorem freshness {L : LruCache String} (parseRfc3339 : String → Option ℤ)
    (fromIsoFormat : String → Option IsoTime) (g : ReplayDetection.ReplayGuard L)
    (g' : PythonReplayGuard.ReplayGuard) (c : ReplayDetection.Call)
    (c' : PythonReplayGuard.Call) :
    ((ReplayDetection.accepts parseRfc3339 g c = true →
        ∀ age, ageNanos parseRfc3339 c = some age → age < (g.windowSecs + 1) * 1000000000) ∧
      ((∀ age, ageNanos parseRfc3339 c = some age → age ≤ g.windowSecs * 1000000000) →
        (ReplayDetection.accepts parseRfc3339 g c = true ↔ ¬ Held g c))) ∧
    ((PythonReplayGuard.accepts fromIsoFormat g' c' = true →
        ∀ age, ageMicros fromIsoFormat c' = some age → totalSeconds age ≤ g'.windowSecs ∧
          (g'.windowSecs < 2 ^ 34 → (age : ℤ) ≤ g'.windowSecs * 1000000)) ∧
      (Dated fromIsoFormat c' →
        (∀ age, ageMicros fromIsoFormat c' = some age → (age : ℤ) ≤ g'.windowSecs * 1000000) →
        (PythonReplayGuard.accepts fromIsoFormat g' c' = true ↔ ¬ Blocked g' c'))) ∧
    (SameReading parseRfc3339 fromIsoFormat c c' → Dated fromIsoFormat c' →
      g'.windowSecs = g.windowSecs →
      (Held g c ↔ Blocked g' c') →
      (∀ age, ageNanos parseRfc3339 c = some age →
        age ≤ g.windowSecs * 1000000000 ∨ (g.windowSecs + 1) * 1000000000 ≤ age) →
      ReplayDetection.accepts parseRfc3339 g c =
        PythonReplayGuard.accepts fromIsoFormat g' c') := by
  refine ⟨⟨?_, accepts_iff_of_within⟩, ⟨?_, call_accepts_iff_of_within⟩, ?_⟩
  · intro h
    exact (accepts_iff_fresh.mp h).1
  · intro h age hage
    have hfresh := (call_accepts_iff_fresh.mp h).1 age hage
    exact ⟨hfresh, fun hwindow => le_of_totalSeconds_le hwindow hfresh⟩
  · intro hreading hdated hwindow hheld hage
    exact hreading.accepts_eq hdated hwindow hheld hage

/-- A parser that reads one timestamp. -/
def readsOffset (text : String) : Option ℤ :=
  if text = "1970-01-01T00:00:00+00:00" then some 0 else none

/-- The same with the timestamp also read where it lacks the offset. -/
def readsNaive (text : String) : Option IsoTime :=
  if text = "1970-01-01T00:00:00+00:00" then some ⟨0, some 0⟩
  else if text = "1970-01-01T00:00:00" then some ⟨0, none⟩
  else none

/-- Both guards accept a message from "yesterday", and an hour after a time without an
offset only the Rust guard accepts it. -/
theorem unread_accepted :
    (¬ ∀ (parseRfc3339 : String → Option ℤ)
      (g : ReplayDetection.ReplayGuard (listCache String)) (c : ReplayDetection.Call),
      ReplayDetection.accepts parseRfc3339 g c = true → ∃ t, parseRfc3339 c.timestamp = some t ∧
        (c.now - t).natAbs ≤ g.windowSecs * 1000000000) ∧
    (¬ ∀ (fromIsoFormat : String → Option IsoTime) (g : PythonReplayGuard.ReplayGuard)
      (c : PythonReplayGuard.Call), PythonReplayGuard.accepts fromIsoFormat g c = true →
        ∃ t, fromIsoFormat c.timestamp = some t ∧ t.utcoffset.isSome = true ∧
          ((c.now - t.instant).natAbs : ℤ) ≤ g.windowSecs * 1000000) ∧
    ReplayDetection.accepts readsOffset (ReplayDetection.new (listCache String) 100 60)
        ⟨3600000000000, "m1", none, "1970-01-01T00:00:00"⟩ ≠
      PythonReplayGuard.accepts readsNaive (PythonReplayGuard.new 100 60)
        ⟨3600000000, 3600000000, "m1", none, "1970-01-01T00:00:00"⟩ := by
  refine ⟨?_, ?_, by decide +kernel⟩
  · intro h
    obtain ⟨t, hread, _⟩ := h readsOffset (ReplayDetection.new (listCache String) 100 60)
      ⟨0, "m1", none, "yesterday"⟩ (by decide)
    cases hread
  · intro h
    obtain ⟨t, hread, _⟩ := h readsNaive (PythonReplayGuard.new 100 60)
      ⟨0, 0, "m1", none, "yesterday"⟩ (by decide)
    cases hread

/-- A minute after the timestamp both guards still accept it. -/
theorem freshness_minute :
    ReplayDetection.accepts readsOffset (ReplayDetection.new (listCache String) 100 60)
        ⟨60000000000, "m1", none, "1970-01-01T00:00:00+00:00"⟩ =
      PythonReplayGuard.accepts readsNaive (PythonReplayGuard.new 100 60)
        ⟨60000000, 60000000, "m1", none, "1970-01-01T00:00:00+00:00"⟩ := by
  apply (freshness readsOffset readsNaive (ReplayDetection.new (listCache String) 100 60)
    (PythonReplayGuard.new 100 60) ⟨60000000000, "m1", none, "1970-01-01T00:00:00+00:00"⟩
    ⟨60000000, 60000000, "m1", none, "1970-01-01T00:00:00+00:00"⟩).2.2
  · exact ⟨by decide, by decide⟩
  · intro age hage
    cases hage
    decide
  · rfl
  · constructor
    · intro h
      obtain ⟨key, hkey, _⟩ := h
      cases hkey
    · intro h
      obtain ⟨key, hkey, _⟩ := h
      cases hkey
  · intro age hage
    cases hage
    exact .inl (by decide)

end LdpProtocol.ReplayFreshness
