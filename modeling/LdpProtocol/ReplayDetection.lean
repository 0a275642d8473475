import LdpProtocol.RecencyCaches

/-!
# The Rust replay guard

`check` tests the timestamp against the clock and the pair of message id and
nonce against a bounded cache. The cache and the parsing of timestamps belong to
other crates; instants are nanoseconds. A history is any sequence of calls, each
with the clock reading it made.
-/
namespace LdpProtocol.ReplayDetection
open RecencyCaches

/-- Guards against replayed messages using a bounded LRU cache. -/
structure ReplayGuard (L : LruCache String) where
  seen : L.Cache
  windowSecs : ℕ

/-- The whole seconds of a duration, truncated towards zero. -/
def numSeconds (nanos : ℤ) : ℤ := nanos.tdiv 1000000000

/-- `format!("{}:{}", message_id, nonce)`. -/
def pairKey (messageId nonce : String) : String := messageId ++ ":" ++ nonce

/-- One call of `check`, with the clock at that moment. -/
structure Call where
  now : ℤ
  messageId : String
  nonce : Option String
  timestamp : String
  deriving DecidableEq

def Call.key (c : Call) : Option String := c.nonce.map (pairKey c.messageId)

section
variable {L : LruCache String} (parseRfc3339 : String → Option ℤ)

def new (L : LruCache String) (capacity windowSecs : ℕ) : ReplayGuard L where
  seen := L.new (max capacity 1)
  windowSecs := windowSecs

/-- Seconds between the clock and the timestamp, whichever is later. -/
def ageSecs (now msgTime : ℤ) : ℕ := (numSeconds (now - msgTime)).natAbs

def timestampError (windowSecs : ℕ) (c : Call) : Option String :=
  match parseRfc3339 c.timestamp with
  | some msgTime =>
      let diff := ageSecs c.now msgTime
      if windowSecs < diff then
        some ("Message timestamp too old: " ++ toString diff ++ "s > " ++ toString windowSecs ++
          "s window")
      else none
  | none => none

/-- Check if a message should be accepted; a refusal comes with its reason. -/
def check (g : ReplayGuard L) (c : Call) : Except String Unit × ReplayGuard L :=
  match timestampError parseRfc3339 g.windowSecs c with
  | some reason => (.error reason, g)
  | none =>
      match c.nonce with
      | some nonce =>
          let key := pairKey c.messageId nonce
          if L.contains g.seen key then (.error "Duplicate message_id + nonce pair", g)
          else (.ok (), { g with seen := L.put g.seen key })
      | none => (.ok (), g)

def accepts (g : ReplayGuard L) (c : Call) : Bool := (check parseRfc3339 g c).1.isOk

/-- The guard after a history. -/
def after (g : ReplayGuard L) (calls : List Call) : ReplayGuard L :=
  calls.foldl (fun g c => (check parseRfc3339 g c).2) g

/-- The accepted calls of a history, oldest first. -/
def accepted (g : ReplayGuard L) : List Call → List Call
  | [] => []
  | c :: calls =>
      let rest := accepted (check parseRfc3339 g c).2 calls
      if accepts parseRfc3339 g c then c :: rest else rest

/-- The keys of the nonce-bearing ones among some calls. -/
def keys (calls : List Call) : List String := calls.filterMap Call.key

variable {parseRfc3339}

theorem after_concat (g : ReplayGuard L) (calls : List Call) (c : Call) :
    after parseRfc3339 g (calls ++ [c]) =
      (check parseRfc3339 (after parseRfc3339 g calls) c).2 := by
  simp [after]

theorem accepted_append (g : ReplayGuard L) (calls more : List Call) :
    accepted parseRfc3339 g (calls ++ more) =
      accepted parseRfc3339 g calls ++ accepted parseRfc3339 (after parseRfc3339 g calls) more := by
  induction calls generalizing g with
  | nil => rfl
  | cons c calls ih =>
      have hafter : after parseRfc3339 g (c :: calls) =
        after parseRfc3339 (check parseRfc3339 g c).2 calls := rfl
      simp only [List.cons_append, accepted, ih, hafter]
      split <;> rfl

theorem accepted_concat (g : ReplayGuard L) (calls : List Call) (c : Call) :
    accepted parseRfc3339 g (calls ++ [c]) = accepted parseRfc3339 g calls ++
      if accepts parseRfc3339 (after parseRfc3339 g calls) c then [c] else [] := by
  rw [accepted_append]
  simp only [accepted]

/-- What one call does: it is stale, repeats a key that is held, brings a new
key, or bears no nonce. -/
theorem check_cases (parseRfc3339 : String → Option ℤ) (g : ReplayGuard L) (c : Call) :
    (∃ reason, timestampError parseRfc3339 g.windowSecs c = some reason ∧
      check parseRfc3339 g c = (.error reason, g)) ∨
    (timestampError parseRfc3339 g.windowSecs c = none ∧
      ((∃ key, c.key = some key ∧ L.contains g.seen key = true ∧
          check parseRfc3339 g c = (.error "Duplicate message_id + nonce pair", g)) ∨
        (∃ key, c.key = some key ∧ L.contains g.seen key = false ∧
          check parseRfc3339 g c = (.ok (), { g with seen := L.put g.seen key })) ∨
        (c.key = none ∧ check parseRfc3339 g c = (.ok (), g)))) := by
  unfold check Call.key
  cases hstamp : timestampError parseRfc3339 g.windowSecs c with
  | some reason => exact .inl ⟨reason, rfl, rfl⟩
  | none =>
      refine .inr ⟨rfl, ?_⟩
      cases hnonce : c.nonce with
      | none => exact .inr (.inr ⟨rfl, rfl⟩)
      | some nonce =>
          cases hheld : L.contains g.seen (pairKey c.messageId nonce) with
          | true => exact .inl ⟨_, rfl, hheld, by simp [hheld]⟩
          | false => exact .inr (.inl ⟨_, rfl, hheld, by simp [hheld]⟩)

/-- A rejected call leaves the guard as it was. -/
theorem check_rejected (g : ReplayGuard L) (c : Call)
    (h : accepts parseRfc3339 g c = false) : (check parseRfc3339 g c).2 = g := by
  unfold accepts at h
  rcases check_cases parseRfc3339 g c with ⟨reason, _, hc⟩ |
    ⟨_, ⟨key, _, _, hc⟩ | ⟨key, _, _, hc⟩ | ⟨_, hc⟩⟩
  · rw [hc]
  · rw [hc]
  · rw [hc] at h
    cases h
  · rw [hc]

theorem check_windowSecs (g : ReplayGuard L) (c : Call) :
    (check parseRfc3339 g c).2.windowSecs = g.windowSecs := by
  rcases check_cases parseRfc3339 g c with ⟨reason, _, hc⟩ |
    ⟨_, ⟨key, _, _, hc⟩ | ⟨key, _, _, hc⟩ | ⟨_, hc⟩⟩ <;> rw [hc]

theorem after_windowSecs (g : ReplayGuard L) (calls : List Call) :
    (after parseRfc3339 g calls).windowSecs = g.windowSecs := by
  induction calls using List.reverseRecOn with
  | nil => rfl
  | append_singleton calls c ih => rw [after_concat, check_windowSecs, ih]

/-- A call is accepted when its timestamp passes and its key is not held. -/
theorem accepts_iff (g : ReplayGuard L) (c : Call) :
    accepts parseRfc3339 g c = true ↔ timestampError parseRfc3339 g.windowSecs c = none ∧
      ∀ key, c.key = some key → L.contains g.seen key = false := by
  unfold accepts
  rcases check_cases parseRfc3339 g c with ⟨reason, hstamp, hc⟩ |
    ⟨hstamp, ⟨key, hkey, hheld, hc⟩ | ⟨key, hkey, hheld, hc⟩ | ⟨hkey, hc⟩⟩
  · simp [hc, hstamp, Except.isOk, Except.toBool]
  · simp [hc, hkey, hheld, Except.isOk, Except.toBool]
  · simp [hc, hstamp, hkey, hheld, Except.isOk, Except.toBool]
  · simp [hc, hstamp, hkey, Except.isOk, Except.toBool]

variable {capacity windowSecs : ℕ} {calls : List Call}

/-- The cache of a new guard is filled with the keys of the accepted calls. -/
theorem filled (calls : List Call) :
    Filled L (L.new (max capacity 1))
      (keys (accepted parseRfc3339 (new L capacity windowSecs) calls))
      (after parseRfc3339 (new L capacity windowSecs) calls).seen := by
  induction calls using List.reverseRecOn with
  | nil => exact .start
  | append_singleton calls c ih =>
      rw [after_concat, accepted_concat]
      generalize after parseRfc3339 (new L capacity windowSecs) calls = g at ih
      unfold accepts keys at *
      rcases check_cases parseRfc3339 g c with ⟨reason, _, hc⟩ |
        ⟨_, ⟨key, _, _, hc⟩ | ⟨key, hkey, hheld, hc⟩ | ⟨hkey, hc⟩⟩
      · simpa [hc, Except.isOk, Except.toBool] using ih
      · simpa [hc, Except.isOk, Except.toBool] using ih
      · simpa [hc, hkey, Except.isOk, Except.toBool] using ih.put hheld
      · simpa [hc, hkey, Except.isOk, Except.toBool] using ih

theorem seen_iff (parseRfc3339 : String → Option ℤ) (windowSecs : ℕ) (R : L.Recency)
    (calls : List Call) (key : String) :
    L.contains (after parseRfc3339 (new L capacity windowSecs) calls).seen key = true ↔
      key ∈ lastKeys (max capacity 1)
        (keys (accepted parseRfc3339 (new L capacity windowSecs) calls)) :=
  (filled calls).contains_iff R (by omega) key

/-- A key is remembered while fewer nonce-bearing calls than the capacity have
been accepted after it. -/
theorem remembered_iff {acceptedCalls : List Call} {n : ℕ} {key : String} :
    key ∈ lastKeys n (keys acceptedCalls) ↔ ∃ earlier a later,
      acceptedCalls = earlier ++ a :: later ∧ a.key = some key ∧ (keys later).length < n :=
  mem_lastKeys_filterMap_iff

/-- After every history the cache holds exactly the keys of the last accepted
nonce-bearing calls, newest first and as many as fit; a rejected call changes
nothing; a pair is not accepted again before as many others as fit. -/
theorem guard_history (parseRfc3339 : String → Option ℤ) (R : L.Recency)
    (capacity windowSecs : ℕ) (calls : List Call) :
    R.recent (after parseRfc3339 (new L capacity windowSecs) calls).seen =
        lastKeys (max capacity 1)
          (keys (accepted parseRfc3339 (new L capacity windowSecs) calls)) ∧
      (∀ key, L.contains (after parseRfc3339 (new L capacity windowSecs) calls).seen key = true ↔
        key ∈ lastKeys (max capacity 1)
          (keys (accepted parseRfc3339 (new L capacity windowSecs) calls))) ∧
      ∀ c, (accepts parseRfc3339 (after parseRfc3339 (new L capacity windowSecs) calls) c = false →
          (check parseRfc3339 (after parseRfc3339 (new L capacity windowSecs) calls) c).2 =
            after parseRfc3339 (new L capacity windowSecs) calls) ∧
        ∀ earlier a later,
          accepted parseRfc3339 (new L capacity windowSecs) calls = earlier ++ a :: later →
          a.messageId = c.messageId → a.nonce = c.nonce → c.nonce.isSome = true →
          (keys later).length < max capacity 1 →
          accepts parseRfc3339 (after parseRfc3339 (new L capacity windowSecs) calls) c =
            false := by
  refine ⟨(filled calls).recent R (by omega), seen_iff parseRfc3339 windowSecs R calls, ?_⟩
  intro c
  refine ⟨check_rejected _ c, ?_⟩
  intro earlier a later hsplit hid hnonce hbears hlen
  obtain ⟨nonce, hc⟩ := Option.isSome_iff_exists.mp hbears
  have hkey : c.key = some (pairKey c.messageId nonce) := by simp [Call.key, hc]
  have hakey : a.key = some (pairKey c.messageId nonce) := by simp [Call.key, hnonce, hc, hid]
  have hheld := (seen_iff parseRfc3339 windowSecs R calls _).mpr
    (remembered_iff.mpr ⟨earlier, a, later, hsplit, hakey, hlen⟩)
  apply Bool.eq_false_iff.mpr
  intro haccepts
  have habsent := ((accepts_iff _ c).mp haccepts).2 _ hkey
  rw [hheld] at habsent
  cases habsent

end

/-- Three messages at one instant through a cache for two keys. -/
def threeCalls : List Call :=
  [⟨0, "m1", some "n1", "t"⟩, ⟨0, "m2", some "n2", "t"⟩, ⟨0, "m3", some "n3", "t"⟩]

/-- The third is refused when it is repeated. -/
theorem guard_history_threeCalls :
    accepts (fun _ => some 0) (after (fun _ => some 0) (new (listCache String) 2 60) threeCalls)
      ⟨0, "m3", some "n3", "t"⟩ = false :=
  ((guard_history (fun _ => some 0) (listRecency String) 2 60 threeCalls).2.2
    ⟨0, "m3", some "n3", "t"⟩).2 [⟨0, "m1", some "n1", "t"⟩, ⟨0, "m2", some "n2", "t"⟩]
    ⟨0, "m3", some "n3", "t"⟩ [] rfl rfl rfl rfl (by decide)

end LdpProtocol.ReplayDetection
