import LdpProtocol.ReplayDetection

/-!
# How large the replay cache has to be

A timestamp is fresh from `windowSecs` before the clock to `windowSecs` after
it, so one message stays presentable for twice the window, and longer by the
truncation of seconds. A cache sized for one window can therefore lose a pair
that is still fresh. Sized for the whole presentable span it cannot.
-/
namespace LdpProtocol.CapacitySizing
open RecencyCaches ReplayDetection

/-- The call carries the message of an earlier one. -/
def SameMessage (a c : Call) : Prop :=
  a.nonce.isSome = true ∧ a.messageId = c.messageId ∧ a.nonce = c.nonce ∧
    a.timestamp = c.timestamp

/-- No message was accepted twice. -/
def NeverAgain (acceptedCalls : List Call) : Prop :=
  acceptedCalls.Pairwise fun a c => ¬ SameMessage a c

/-- Every closed interval of `span` nanoseconds has at most `capacity` accepted
nonce-bearing calls. -/
def RateWithin (capacity : ℕ) (span : ℤ) (acceptedCalls : List Call) : Prop :=
  ∀ start : ℤ, (acceptedCalls.filter fun c =>
    c.nonce.isSome && decide (start ≤ c.now) && decide (c.now ≤ start + span)).length ≤ capacity

/-- The clock readings of a history do not decrease. -/
def InOrder (calls : List Call) : Prop := calls.Pairwise fun a c => a.now ≤ c.now

/-- The longest time, in nanoseconds, between two moments at which one timestamp
is fresh. -/
def presentableSpan (windowSecs : ℕ) : ℤ := 2 * ((windowSecs + 1) * 1000000000 - 1)

section
variable {L : LruCache String} (parseRfc3339 : String → Option ℤ) (capacity windowSecs : ℕ)

/-- A message that comes again while its timestamp is fresh comes before as many
nonce-bearing calls as the cache holds were accepted after its pair. -/
def RepeatedInTime (L : LruCache String) (calls : List Call) : Prop :=
  ∀ before c behind, calls = before ++ c :: behind →
    (∃ a ∈ accepted parseRfc3339 (new L capacity windowSecs) before, SameMessage a c) →
    timestampError parseRfc3339 windowSecs c = none →
    ∃ earlier a later,
      accepted parseRfc3339 (new L capacity windowSecs) before = earlier ++ a :: later ∧
      a.key = c.key ∧ (keys later).length < max capacity 1

variable {parseRfc3339 capacity windowSecs}

theorem SameMessage.key {a c : Call} (h : SameMessage a c) :
    ∃ key, c.key = some key ∧ a.key = some key := by
  obtain ⟨hbears, hid, hnonce, _⟩ := h
  obtain ⟨nonce, ha⟩ := Option.isSome_iff_exists.mp hbears
  refine ⟨pairKey c.messageId nonce, ?_, ?_⟩
  · simp [Call.key, ← hnonce, ha]
  · simp [Call.key, ha, hid]

/-- Whether a repeated message is accepted. -/
theorem accepts_repeated_iff (R : L.Recency) (before : List Call) {c : Call} {key : String}
    (hkey : c.key = some key) :
    accepts parseRfc3339 (after parseRfc3339 (new L capacity windowSecs) before) c = true ↔
      timestampError parseRfc3339 windowSecs c = none ∧
        key ∉ lastKeys (max capacity 1)
          (keys (accepted parseRfc3339 (new L capacity windowSecs) before)) := by
  have hwindow : (after parseRfc3339 (new L capacity windowSecs) before).windowSecs =
    windowSecs := after_windowSecs _ _
  rw [accepts_iff, hwindow, ← seen_iff _ _ R before key]
  simp [hkey]

theorem repeatedInTime_concat {calls : List Call} {c : Call} :
    RepeatedInTime parseRfc3339 capacity windowSecs L (calls ++ [c]) ↔
      RepeatedInTime parseRfc3339 capacity windowSecs L calls ∧
        ((∃ a ∈ accepted parseRfc3339 (new L capacity windowSecs) calls, SameMessage a c) →
          timestampError parseRfc3339 windowSecs c = none →
          ∃ earlier a later,
            accepted parseRfc3339 (new L capacity windowSecs) calls = earlier ++ a :: later ∧
            a.key = c.key ∧ (keys later).length < max capacity 1) :=
  at_every_concat

/-- Nothing is accepted twice exactly when what is repeated is repeated in time. -/
theorem neverAgain_iff (R : L.Recency) (calls : List Call) :
    NeverAgain (accepted parseRfc3339 (new L capacity windowSecs) calls) ↔
      RepeatedInTime parseRfc3339 capacity windowSecs L calls := by
  induction calls using List.reverseRecOn with
  | nil =>
      constructor
      · intro _ before c behind h
        simp at h
      · intro _
        exact .nil
  | append_singleton calls c ih =>
      rw [repeatedInTime_concat, ← ih, accepted_concat]
      unfold NeverAgain
      rw [List.pairwise_append]
      constructor
      · intro h
        refine ⟨h.1, ?_⟩
        intro hrepeats hfresh
        obtain ⟨a, ha, hsame⟩ := hrepeats
        obtain ⟨key, hkey, _⟩ := hsame.key
        rw [hkey]
        apply remembered_iff.mp
        by_contra hforgotten
        have haccepts := (accepts_repeated_iff R calls hkey).mpr ⟨hfresh, hforgotten⟩
        apply h.2.2 a ha c _ hsame
        rw [haccepts]
        exact List.mem_singleton_self c
      · intro h
        refine ⟨h.1, ?_, ?_⟩
        · split
          · exact List.pairwise_singleton _ _
          · exact .nil
        · intro a ha b hb hsame
          split at hb
          · next haccepts =>
              have hbc : b = c := List.mem_singleton.mp hb
              subst hbc
              obtain ⟨key, hkey, _⟩ := hsame.key
              have hboth := (accepts_repeated_iff R calls hkey).mp haccepts
              have hrecent := h.2 ⟨a, ha, hsame⟩ hboth.1
              rw [hkey] at hrecent
              exact hboth.2 (remembered_iff.mpr hrecent)
          · simp at hb

theorem natAbs_numSeconds (nanos : ℤ) :
    (numSeconds nanos).natAbs = nanos.natAbs / 1000000000 := by
  unfold numSeconds
  rw [Int.natAbs_tdiv]
  rfl

/-- Two moments at which one timestamp passes are at most the presentable span
apart. -/
theorem fresh_apart {a c : Call} {msgTime : ℤ} (hparse : parseRfc3339 c.timestamp = some msgTime)
    (hsame : a.timestamp = c.timestamp)
    (ha : timestampError parseRfc3339 windowSecs a = none)
    (hc : timestampError parseRfc3339 windowSecs c = none) :
    c.now ≤ a.now + presentableSpan windowSecs := by
  have hage : ∀ d : Call, d.timestamp = c.timestamp →
      timestampError parseRfc3339 windowSecs d = none →
      (numSeconds (d.now - msgTime)).natAbs ≤ windowSecs := by
    intro d hd hnone
    unfold timestampError ageSecs at hnone
    rw [hd, hparse] at hnone
    by_contra hlate
    simp [not_le.mp hlate] at hnone
  have hearly := hage a hsame ha
  have hlate := hage c rfl hc
  rw [natAbs_numSeconds] at hearly hlate
  unfold presentableSpan
  omega

/-- Everything accepted comes from the history, in its order. -/
theorem accepted_sublist (g : ReplayGuard L) (calls : List Call) :
    (accepted parseRfc3339 g calls).Sublist calls := by
  induction calls generalizing g with
  | nil => exact .slnil
  | cons c calls ih =>
      simp only [accepted]
      split
      · exact (ih _).cons_cons c
      · exact (ih _).cons c

theorem fresh_of_accepted {calls : List Call} {a : Call}
    (h : a ∈ accepted parseRfc3339 (new L capacity windowSecs) calls) :
    timestampError parseRfc3339 windowSecs a = none := by
  induction calls using List.reverseRecOn with
  | nil => simp [accepted] at h
  | append_singleton calls c ih =>
      rw [accepted_concat] at h
      rcases List.mem_append.mp h with hold | hnew
      · exact ih hold
      · split at hnew
        · next haccepts =>
            have hac : a = c := List.mem_singleton.mp hnew
            have hwindow : (after parseRfc3339 (new L capacity windowSecs) calls).windowSecs =
              windowSecs := after_windowSecs _ _
            rw [accepts_iff, hwindow, ← hac] at haccepts
            exact haccepts.1
        · simp at hnew

theorem length_keys (calls : List Call) :
    (keys calls).length = (calls.filter fun c => c.nonce.isSome).length := by
  unfold keys
  induction calls with
  | nil => rfl
  | cons c calls ih =>
      cases hnonce : c.nonce with
      | none =>
          rw [List.filterMap_cons_none (by simp [Call.key, hnonce]),
            List.filter_cons_of_neg (by simp [hnonce]), ih]
      | some nonce =>
          rw [List.filterMap_cons_some (b := pairKey c.messageId nonce)
            (by simp [Call.key, hnonce]), List.filter_cons_of_pos (by simp [hnonce]),
            List.length_cons, List.length_cons, ih]

/-- With room for all that can be accepted while a timestamp is fresh, every
message that comes again comes in time. -/
theorem repeatedInTime_of_rate {calls : List Call}
    (hparse : ∀ c ∈ calls, (parseRfc3339 c.timestamp).isSome = true) (horder : InOrder calls)
    (hrate : RateWithin (max capacity 1) (presentableSpan windowSecs)
      (accepted parseRfc3339 (new L capacity windowSecs) calls)) :
    RepeatedInTime parseRfc3339 capacity windowSecs L calls := by
  intro before c behind hsplit hrepeats hfresh
  obtain ⟨a, ha, hsame⟩ := hrepeats
  obtain ⟨earlier, later, hlist⟩ := List.append_of_mem ha
  obtain ⟨key, hkey, hakey⟩ := hsame.key
  refine ⟨earlier, a, later, hlist, hakey.trans hkey.symm, ?_⟩
  by_contra hmany
  obtain ⟨msgTime, hmsg⟩ := Option.isSome_iff_exists.mp (hparse c (by rw [hsplit]; simp))
  have hspan := fresh_apart hmsg hsame.2.2.2 (fresh_of_accepted ha) hfresh
  -- the accepted calls from `a` on lie between the two presentations
  have hsub : (earlier ++ a :: later ++ [c]).Sublist calls := by
    rw [← hlist, hsplit]
    exact (accepted_sublist _ before).append (by simp)
  have hsorted := horder.sublist hsub
  rw [List.append_assoc, List.pairwise_append, List.cons_append, List.pairwise_cons] at hsorted
  have hfrom : ∀ x ∈ later, a.now ≤ x.now :=
    fun x hx => hsorted.2.1.1 x (List.mem_append_left _ hx)
  have huntil : ∀ x ∈ later, x.now ≤ c.now :=
    fun x hx => (List.pairwise_append.mp hsorted.2.1.2).2.2 x hx c (List.mem_singleton_self c)
  have hinside : (later.filter fun x => x.nonce.isSome && decide (a.now ≤ x.now) &&
      decide (x.now ≤ a.now + presentableSpan windowSecs)) =
      later.filter fun x => x.nonce.isSome := by
    apply List.filter_congr
    intro x hx
    have hlow := hfrom x hx
    have hhigh : x.now ≤ a.now + presentableSpan windowSecs := (huntil x hx).trans hspan
    simp [hlow, hhigh]
  have hcount := hrate a.now
  have hpositive : 0 ≤ presentableSpan windowSecs := by
    unfold presentableSpan
    omega
  rw [hsplit, accepted_append, hlist, List.filter_append, List.filter_append, List.filter_cons,
    hinside] at hcount
  simp only [hsame.1, le_refl, decide_true, Bool.and_true, hpositive, le_add_iff_nonneg_right,
    if_true, List.length_append, List.length_cons] at hcount
  rw [length_keys] at hmany
  omega

/-- The guard accepts no message twice exactly as long as what is repeated is
repeated in time; a cache that holds all that can be accepted during twice the
window, and the truncated second, is enough for that. -/
theorem neverAgain_sized (parseRfc3339 : String → Option ℤ) (R : L.Recency)
    (capacity windowSecs : ℕ) (calls : List Call) :
    (NeverAgain (accepted parseRfc3339 (new L capacity windowSecs) calls) ↔
      RepeatedInTime parseRfc3339 capacity windowSecs L calls) ∧
    ((∀ c ∈ calls, (parseRfc3339 c.timestamp).isSome = true) → InOrder calls →
      RateWithin (max capacity 1) (presentableSpan windowSecs)
        (accepted parseRfc3339 (new L capacity windowSecs) calls) →
      RepeatedInTime parseRfc3339 capacity windowSecs L calls) :=
  ⟨neverAgain_iff R calls, repeatedInTime_of_rate⟩

end

/-- The instants of three texts. -/
def minuteOne : String → Option ℤ
  | "1970-01-01T00:00:30Z" => some 30000000000
  | "1970-01-01T00:01:00Z" => some 60000000000
  | "1970-01-01T00:01:01Z" => some 61000000000
  | _ => none

/-- A message dated one minute ahead, two others, and the first one again, two
minutes later. -/
def captured : List Call :=
  [⟨0, "m1", some "n1", "1970-01-01T00:01:00Z"⟩,
    ⟨30000000000, "m2", some "n2", "1970-01-01T00:00:30Z"⟩,
    ⟨61000000000, "m3", some "n3", "1970-01-01T00:01:01Z"⟩,
    ⟨120000000000, "m1", some "n1", "1970-01-01T00:01:00Z"⟩]

theorem captured_accepted :
    accepted minuteOne (new (listCache String) 2 60) captured = captured := by decide

/-- No minute has more than two of them. -/
theorem captured_rate : RateWithin 2 (60 * 1000000000) captured := by
  intro start
  unfold captured
  simp only [List.filter_cons, List.filter_nil, Option.isSome_some, Bool.true_and,
    Bool.and_eq_true, decide_eq_true_eq]
  split_ifs <;> simp only [List.length_cons, List.length_nil] <;> omega

/-- Sized by the window alone, the cache lets a captured message in again. -/
theorem accepted_again : ¬ ∀ (L : LruCache String) (_ : L.Recency)
    (parseRfc3339 : String → Option ℤ) (capacity windowSecs : ℕ) (calls : List Call),
    1 ≤ capacity → (∀ c ∈ calls, (parseRfc3339 c.timestamp).isSome = true) → InOrder calls →
    RateWithin capacity (windowSecs * 1000000000)
      (accepted parseRfc3339 (new L capacity windowSecs) calls) →
    NeverAgain (accepted parseRfc3339 (new L capacity windowSecs) calls) := by
  intro h
  have hnever := h (listCache String) (listRecency String) minuteOne 2 60 captured (by decide)
    (by decide) (by unfold InOrder; decide) (by rw [captured_accepted]; exact captured_rate)
  rw [captured_accepted] at hnever
  have hagain : (⟨120000000000, "m1", some "n1", "1970-01-01T00:01:00Z"⟩ : Call) ∈
    captured.tail := by decide
  exact (List.pairwise_cons.mp hnever).1 _ hagain ⟨rfl, rfl, rfl, rfl⟩

/-- A cache for three of them does not. -/
theorem neverAgain_sized_captured :
    NeverAgain (accepted minuteOne (new (listCache String) 3 60) captured) := by
  have hsized := neverAgain_sized minuteOne (listRecency String) 3 60 captured
  apply hsized.1.mpr
  apply hsized.2 (by decide) (by unfold InOrder; decide)
  intro start
  exact List.length_filter_le _ _
end LdpProtocol.CapacitySizing
