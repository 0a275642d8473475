import LdpProtocol.DelimitedFields
import LdpProtocol.PythonReplayGuard

/-!
# Which messages a replay guard takes for each other

Both guards remember a pair of message id and nonce as one text with a colon between
the two. A colon inside an id or a nonce can stand for that one, so two different
pairs may have one text, and then the one message is rejected as a duplicate of the
other. That is the only way in which an alarm can be false.
-/
namespace LdpProtocol.FalseAlarms
open RecencyCaches DelimitedFields
open ReplayDetection (pairKey)
open PythonReplayGuard (IsoTime)

/-- A message id and a nonce. -/
abbrev Pair := String × String

/-- The colon after the id of one pair stands inside the id of the other. -/
def Shifted (p q : Pair) : Prop :=
  ∃ a b c, p = (a, b ++ ":" ++ c) ∧ q = (a ++ ":" ++ b, c)

/-- Two pairs that can be taken for each other. -/
def Confusable (p q : Pair) : Prop := Shifted p q ∨ Shifted q p

theorem pairKey_eq_iff_toList (p q : Pair) : pairKey p.1 p.2 = pairKey q.1 q.2 ↔
    p.1.toList ++ ':' :: p.2.toList = q.1.toList ++ ':' :: q.2.toList := by
  unfold pairKey
  rw [← String.toList_inj]
  simp

theorem shifted_iff (p q : Pair) : Shifted p q ↔
    ∃ m, q.1.toList = p.1.toList ++ ':' :: m ∧ p.2.toList = m ++ ':' :: q.2.toList := by
  constructor
  · intro h
    obtain ⟨a, b, c, hp, hq⟩ := h
    rw [hp, hq]
    exact ⟨b.toList, by simp, by simp⟩
  · intro h
    obtain ⟨m, hid, hnonce⟩ := h
    refine ⟨p.1, String.ofList m, q.2, ?_, ?_⟩
    · refine Prod.ext rfl (String.toList_injective ?_)
      rw [hnonce]
      simp
    · refine Prod.ext (String.toList_injective ?_) rfl
      rw [hid]
      simp

/-- Two pairs have one text exactly when they are the same or can be confused. -/
theorem pairKey_eq_iff (p q : Pair) :
    pairKey p.1 p.2 = pairKey q.1 q.2 ↔ p = q ∨ Confusable p q := by
  rw [pairKey_eq_iff_toList, two_readings_iff, Confusable, shifted_iff, shifted_iff,
    String.toList_inj, String.toList_inj, ← Prod.ext_iff]

/-- Different pairs that can be confused. -/
theorem Confusable.ne {p q : Pair} (h : Confusable p q) : p ≠ q := by
  have hshifted : ∀ {p q : Pair}, Shifted p q → p ≠ q := by
    intro p q hshift heq
    obtain ⟨m, hid, _⟩ := (shifted_iff p q).mp hshift
    have hlen := congrArg List.length hid
    rw [heq] at hlen
    simp at hlen
  rcases h with h | h
  · exact hshifted h
  · exact (hshifted h).symm

/-- The pairs that may be sent, none of which can be taken for another. -/
def Distinguishable (pairs : Set Pair) : Prop := ∀ p ∈ pairs, ∀ q ∈ pairs, ¬ Confusable p q

/-- Pairs whose ids have no colon, as generated ids have none. -/
theorem distinguishable_of_colonless : Distinguishable {p | ':' ∉ p.1.toList} := by
  have hshifted : ∀ p q : Pair, ':' ∉ q.1.toList → ¬ Shifted p q := by
    intro p q hq hshift
    obtain ⟨m, hid, _⟩ := (shifted_iff p q).mp hshift
    apply hq
    rw [hid]
    simp
  intro p hp q hq hconfusable
  rcases hconfusable with h | h
  · exact hshifted p q hq h
  · exact hshifted q p hp h

theorem Distinguishable.eq {pairs : Set Pair} (h : Distinguishable pairs) {p q : Pair}
    (hp : p ∈ pairs) (hq : q ∈ pairs) (hkey : pairKey p.1 p.2 = pairKey q.1 q.2) : p = q := by
  rcases (pairKey_eq_iff p q).mp hkey with heq | hconfusable
  · exact heq
  · exact (h p hp q hq hconfusable).elim

section Alarms
variable {C : Type} {pairOf : C → Option Pair} {accepted : List C → List C}
  {Duplicate : List C → C → Prop} {pairs : Set Pair} {calls : List C}

/-- The pairs of the calls are among these. -/
def Bears (pairOf : C → Option Pair) (pairs : Set Pair) (calls : List C) : Prop :=
  ∀ c ∈ calls, ∀ p, pairOf c = some p → p ∈ pairs

/-- A call is rejected as a duplicate only of an accepted call with its pair. -/
def NoFalseAlarm (pairOf : C → Option Pair) (accepted : List C → List C)
    (Duplicate : List C → C → Prop) (calls : List C) : Prop :=
  ∀ before c behind, calls = before ++ c :: behind → Duplicate before c →
    ∃ a ∈ accepted before, pairOf a = pairOf c

theorem noFalseAlarm_of_distinguishable (hsubset : ∀ calls, accepted calls ⊆ calls)
    (hheld : ∀ before c, Duplicate before c → ∃ a ∈ accepted before, ∃ p q, pairOf a = some p ∧
      pairOf c = some q ∧ pairKey p.1 p.2 = pairKey q.1 q.2)
    (hpairs : Distinguishable pairs) (hbears : Bears pairOf pairs calls) :
    NoFalseAlarm pairOf accepted Duplicate calls := by
  intro before c behind hsplit hduplicate
  obtain ⟨a, ha, p, q, hp, hq, hkey⟩ := hheld before c hduplicate
  have hasent : a ∈ calls := by
    rw [hsplit]
    exact List.mem_append_left _ (hsubset before ha)
  have hcsent : c ∈ calls := by
    rw [hsplit]
    simp
  refine ⟨a, ha, ?_⟩
  rw [hp, hq, hpairs.eq (hbears a hasent p hp) (hbears c hcsent q hq) hkey]

/-- Where a pair is taken for another one after it was accepted, no run is without
false alarms but on pairs that can be told apart. -/
theorem distinguishable_of_noFalseAlarm (call : Pair → C) (hcall : ∀ p, pairOf (call p) = some p)
    (hfirst : ∀ p, accepted [call p] = [call p])
    (hsecond : ∀ p q, pairKey p.1 p.2 = pairKey q.1 q.2 → Duplicate [call p] (call q))
    (hnone : ∀ calls, Bears pairOf pairs calls → NoFalseAlarm pairOf accepted Duplicate calls) :
    Distinguishable pairs := by
  intro p hp q hq hconfusable
  have hbears : Bears pairOf pairs [call p, call q] := by
    intro c hc r hr
    rcases List.mem_cons.mp hc with hc | hc
    · rw [hc, hcall] at hr
      cases hr
      exact hp
    · rw [List.mem_singleton.mp hc, hcall] at hr
      cases hr
      exact hq
  obtain ⟨a, ha, hsame⟩ := hnone _ hbears [call p] (call q) [] rfl
    (hsecond p q ((pairKey_eq_iff p q).mpr (.inr hconfusable)))
  rw [hfirst, List.mem_singleton] at ha
  rw [ha, hcall, hcall] at hsame
  exact hconfusable.ne (Option.some.inj hsame)

end Alarms

section Rust
open ReplayDetection
variable {L : LruCache String} {parseRfc3339 : String → Option ℤ} {capacity windowSecs : ℕ}
  {c : Call}

/-- The pair of message id and nonce a call bears. -/
def pairOf (c : Call) : Option Pair := c.nonce.map fun nonce => (c.messageId, nonce)

/-- The call is rejected as a duplicate after these calls. -/
def Duplicate (parseRfc3339 : String → Option ℤ) (g : ReplayGuard L) (before : List Call)
    (c : Call) : Prop :=
  (check parseRfc3339 (after parseRfc3339 g before) c).1 =
    .error "Duplicate message_id + nonce pair"

theorem key_eq_some_iff {key : String} : c.key = some key ↔
    ∃ p, pairOf c = some p ∧ pairKey p.1 p.2 = key := by
  unfold Call.key pairOf
  cases c.nonce <;> simp

theorem timestampError_ne_duplicate (parseRfc3339 : String → Option ℤ) (windowSecs : ℕ)
    (c : Call) :
    timestampError parseRfc3339 windowSecs c ≠ some "Duplicate message_id + nonce pair" := by
  unfold timestampError
  intro h
  split at h
  · dsimp only at h
    split at h
    · have htext := congrArg String.toList (Option.some.inj h)
      simp at htext
    · cases h
  · cases h

/-- A call is rejected as a duplicate exactly if it is fresh and its key is held. -/
theorem duplicate_iff {g : ReplayGuard L} {before : List Call} : Duplicate parseRfc3339 g before c ↔
    timestampError parseRfc3339 g.windowSecs c = none ∧
      ∃ key, c.key = some key ∧ L.contains (after parseRfc3339 g before).seen key = true := by
  have hwindow : (after parseRfc3339 g before).windowSecs = g.windowSecs :=
    after_windowSecs g before
  unfold Duplicate
  rw [← hwindow]
  rcases check_cases parseRfc3339 (after parseRfc3339 g before) c with ⟨reason, hstamp, hc⟩ |
    ⟨hstamp, ⟨key, hkey, hheld, hc⟩ | ⟨key, hkey, hheld, hc⟩ | ⟨hkey, hc⟩⟩
  · have hne := timestampError_ne_duplicate parseRfc3339
      (after parseRfc3339 g before).windowSecs c
    rw [hstamp] at hne
    rw [hc, hstamp]
    constructor
    · intro h
      exact (hne (congrArg some (Except.error.inj h))).elim
    · intro h
      cases h.1
  · simp [hc, hstamp, hkey, hheld]
  · simp [hc, hkey, hheld]
  · simp [hc, hkey]

theorem accepted_subset (g : ReplayGuard L) (calls : List Call) :
    accepted parseRfc3339 g calls ⊆ calls := by
  induction calls generalizing g with
  | nil => simp [accepted]
  | cons c calls ih =>
      unfold accepted
      dsimp only
      split
      · exact List.cons_subset_cons c (ih _)
      · exact List.subset_cons_of_subset c (ih _)

/-- What is held was put by an accepted call. -/
theorem duplicate_held (R : L.Recency) {before : List Call}
    (h : Duplicate parseRfc3339 (new L capacity windowSecs) before c) :
    ∃ a ∈ accepted parseRfc3339 (new L capacity windowSecs) before, ∃ p q, pairOf a = some p ∧
      pairOf c = some q ∧ pairKey p.1 p.2 = pairKey q.1 q.2 := by
  obtain ⟨_, key, hkey, hheld⟩ := duplicate_iff.mp h
  rw [seen_iff parseRfc3339 windowSecs R, remembered_iff] at hheld
  obtain ⟨earlier, a, later, haccepted, hakey, _⟩ := hheld
  obtain ⟨p, hp, hpkey⟩ := key_eq_some_iff.mp hakey
  obtain ⟨q, hq, hqkey⟩ := key_eq_some_iff.mp hkey
  exact ⟨a, by rw [haccepted]; simp, p, q, hp, hq, hpkey.trans hqkey.symm⟩

/-- A call that bears a pair and is fresh by any clock. -/
def freshCall (parseRfc3339 : String → Option ℤ) (p : Pair) : Call :=
  ⟨(parseRfc3339 "").getD 0, p.1, some p.2, ""⟩

theorem freshCall_fresh (parseRfc3339 : String → Option ℤ) (windowSecs : ℕ) (p : Pair) :
    timestampError parseRfc3339 windowSecs (freshCall parseRfc3339 p) = none := by
  unfold timestampError freshCall
  cases parseRfc3339 "" with
  | none => rfl
  | some t => simp [ageSecs, numSeconds]

theorem freshCall_accepted (R : L.Recency) (p : Pair) :
    accepted parseRfc3339 (new L capacity windowSecs) [freshCall parseRfc3339 p] =
      [freshCall parseRfc3339 p] := by
  have haccepts : accepts parseRfc3339 (new L capacity windowSecs) (freshCall parseRfc3339 p) =
      true := by
    refine (accepts_iff _ _).mpr ⟨freshCall_fresh _ _ p, ?_⟩
    intro key _
    rw [Bool.eq_false_iff]
    intro hheld
    have hmem := (seen_iff parseRfc3339 windowSecs R [] key).mp hheld
    simp [accepted, keys, lastKeys] at hmem
  simp [accepted, haccepts]

theorem freshCall_duplicate (R : L.Recency) {p q : Pair}
    (h : pairKey p.1 p.2 = pairKey q.1 q.2) : Duplicate parseRfc3339 (new L capacity windowSecs)
      [freshCall parseRfc3339 p] (freshCall parseRfc3339 q) := by
  refine duplicate_iff.mpr ⟨freshCall_fresh _ _ q, pairKey q.1 q.2, rfl, ?_⟩
  rw [seen_iff parseRfc3339 windowSecs R, freshCall_accepted R, remembered_iff]
  exact ⟨[], freshCall parseRfc3339 p, [], rfl, congrArg some h, by simp [keys]⟩

end Rust

section Python
variable {fromIsoFormat : String → Option IsoTime} {capacity : ℕ} {windowSecs : ℤ}
  {c : PythonReplayGuard.Call}

def pairOfCall (c : PythonReplayGuard.Call) : Option Pair :=
  c.nonce.map fun nonce => (c.messageId, nonce)

def DuplicateCall (fromIsoFormat : String → Option IsoTime) (g : PythonReplayGuard.ReplayGuard)
    (before : List PythonReplayGuard.Call) (c : PythonReplayGuard.Call) : Prop :=
  (PythonReplayGuard.check fromIsoFormat (PythonReplayGuard.after fromIsoFormat g before) c).1 =
    .ok (some "Duplicate message_id + nonce pair")

theorem call_key_eq_some_iff {key : String} : c.key = some key ↔
    ∃ p, pairOfCall c = some p ∧ pairKey p.1 p.2 = key := by
  unfold PythonReplayGuard.Call.key pairOfCall
  cases c.nonce <;> simp

theorem call_timestampError_ne_duplicate (fromIsoFormat : String → Option IsoTime)
    (windowSecs : ℤ) (c : PythonReplayGuard.Call) :
    PythonReplayGuard.timestampError fromIsoFormat windowSecs c ≠
      some "Duplicate message_id + nonce pair" := by
  unfold PythonReplayGuard.timestampError
  intro h
  split at h
  · dsimp only at h
    split at h
    · have htext := congrArg String.toList (Option.some.inj h)
      simp at htext
    · cases h
  · cases h

theorem check_capacity (g : PythonReplayGuard.ReplayGuard) (c : PythonReplayGuard.Call) :
    (PythonReplayGuard.check fromIsoFormat g c).2.capacity = g.capacity := by
  unfold PythonReplayGuard.check
  split
  · rfl
  · split
    · rfl
    · dsimp only
      split
      · rfl
      · split <;> rfl

theorem after_capacity (g : PythonReplayGuard.ReplayGuard) (calls : List PythonReplayGuard.Call) :
    (PythonReplayGuard.after fromIsoFormat g calls).capacity = g.capacity := by
  induction calls using List.reverseRecOn with
  | nil => rfl
  | append_singleton calls c ih => rw [PythonReplayGuard.after_concat, check_capacity, ih]

/-- A guard for one pair makes room by forgetting it, and one for none raises. -/
theorem makeRoom_of_small (hc : capacity ≤ 1) (seen : List (String × ℤ)) :
    PythonReplayGuard.makeRoom capacity seen = none ∨
      PythonReplayGuard.makeRoom capacity seen = some [] := by
  induction seen with
  | nil =>
      unfold PythonReplayGuard.makeRoom
      split
      · exact .inl rfl
      · exact .inr rfl
  | cons oldest rest ih =>
      rw [PythonReplayGuard.makeRoom, if_pos (by rw [List.length_cons]; omega)]
      exact ih

theorem not_duplicate_of_small (hc : capacity ≤ 1) (before : List PythonReplayGuard.Call) :
    ¬ DuplicateCall fromIsoFormat (PythonReplayGuard.new capacity windowSecs) before c := by
  have hcapacity : (PythonReplayGuard.after fromIsoFormat
      (PythonReplayGuard.new capacity windowSecs) before).capacity = capacity :=
    after_capacity _ before
  unfold DuplicateCall
  generalize PythonReplayGuard.after fromIsoFormat (PythonReplayGuard.new capacity windowSecs)
    before = g at hcapacity ⊢
  rw [← hcapacity] at hc
  intro h
  unfold PythonReplayGuard.check at h
  split at h
  · next reason hstamp =>
      rw [Option.some.inj (Except.ok.inj h)] at hstamp
      exact call_timestampError_ne_duplicate _ _ _ hstamp
  · split at h
    · cases h
    · dsimp only at h
      rcases makeRoom_of_small hc g.seen with hroom | hroom
      · rw [hroom] at h
        cases h
      · rw [hroom] at h
        cases h

/-- A call is rejected as a duplicate exactly if it is fresh and its key is held when
there is room for another one. -/
theorem duplicateCall_iff (hc : 0 < capacity) {before : List PythonReplayGuard.Call} :
    DuplicateCall fromIsoFormat (PythonReplayGuard.new capacity windowSecs) before c ↔
    PythonReplayGuard.timestampError fromIsoFormat windowSecs c = none ∧ ∃ key, c.key = some key ∧
      key ∈ (PythonReplayGuard.after fromIsoFormat (PythonReplayGuard.new capacity windowSecs)
        before).room.map Prod.fst := by
  have hlimits := PythonReplayGuard.after_limits fromIsoFormat hc windowSecs before
  unfold DuplicateCall
  generalize PythonReplayGuard.after fromIsoFormat (PythonReplayGuard.new capacity windowSecs)
    before = g at hlimits ⊢
  obtain ⟨hcapacity, hwindow⟩ := hlimits
  rw [← hcapacity] at hc
  rw [← hwindow]
  rcases PythonReplayGuard.check_cases fromIsoFormat hc c with ⟨reason, hstamp, hcheck⟩ |
    ⟨hstamp, ⟨hkey, hcheck⟩ | ⟨key, hkey, hheld, hcheck⟩ | ⟨key, hkey, habsent, hcheck⟩⟩
  · have hne := call_timestampError_ne_duplicate fromIsoFormat g.windowSecs c
    rw [hstamp] at hne
    rw [hcheck, hstamp]
    constructor
    · intro h
      exact (hne (Except.ok.inj h)).elim
    · intro h
      cases h.1
  · simp [hcheck, hkey]
  · simp only [hcheck, hstamp, hkey, Option.some.injEq, exists_eq_left', true_and]
    exact ⟨fun _ => hheld, fun _ => trivial⟩
  · simp only [hcheck, hstamp, hkey, Option.some.injEq, exists_eq_left', true_and]
    constructor
    · intro h
      cases h
    · intro h
      exact (habsent h).elim

/-- What is held was put by an accepted call. -/
theorem seen_accepted (hc : 0 < capacity) (before : List PythonReplayGuard.Call) :
    ∀ key ∈ (PythonReplayGuard.after fromIsoFormat (PythonReplayGuard.new capacity windowSecs)
      before).seen.map Prod.fst, ∃ a ∈ PythonReplayGuard.accepted fromIsoFormat
        (PythonReplayGuard.new capacity windowSecs) before, a.key = some key := by
  induction before using List.reverseRecOn with
  | nil =>
      intro key hkey
      cases hkey
  | append_singleton before c ih =>
      have hlimits := PythonReplayGuard.after_limits fromIsoFormat hc windowSecs before
      rw [PythonReplayGuard.after_concat, PythonReplayGuard.accepted_concat]
      generalize PythonReplayGuard.after fromIsoFormat (PythonReplayGuard.new capacity windowSecs)
        before = g at hlimits ih ⊢
      rw [← hlimits.1] at hc
      have hroom : ∀ key ∈ g.room.map Prod.fst, ∃ a ∈ PythonReplayGuard.accepted fromIsoFormat
          (PythonReplayGuard.new capacity windowSecs) before, a.key = some key := by
        intro key hkey
        exact ih key (List.map_subset _ (List.drop_subset _ _) hkey)
      unfold PythonReplayGuard.accepts
      intro key hkey
      rcases PythonReplayGuard.check_cases fromIsoFormat hc c with ⟨reason, _, hcheck⟩ |
        ⟨_, ⟨_, hcheck⟩ | ⟨_, _, _, hcheck⟩ | ⟨new, hnew, _, hcheck⟩⟩
      · rw [hcheck] at hkey ⊢
        simpa using ih key hkey
      · rw [hcheck] at hkey ⊢
        obtain ⟨a, ha, hakey⟩ := ih key hkey
        exact ⟨a, List.mem_append_left _ ha, hakey⟩
      · rw [hcheck] at hkey ⊢
        simpa using hroom key hkey
      · rw [hcheck] at hkey ⊢
        rw [List.map_append, List.mem_append] at hkey
        rcases hkey with hkey | hkey
        · obtain ⟨a, ha, hakey⟩ := hroom key hkey
          exact ⟨a, List.mem_append_left _ ha, hakey⟩
        · rw [List.mem_singleton.mp hkey]
          exact ⟨c, by simp, hnew⟩

theorem duplicateCall_held (hc : 0 < capacity) {before : List PythonReplayGuard.Call}
    (h : DuplicateCall fromIsoFormat (PythonReplayGuard.new capacity windowSecs) before c) :
    ∃ a ∈ PythonReplayGuard.accepted fromIsoFormat (PythonReplayGuard.new capacity windowSecs)
      before, ∃ p q, pairOfCall a = some p ∧ pairOfCall c = some q ∧
        pairKey p.1 p.2 = pairKey q.1 q.2 := by
  obtain ⟨_, key, hkey, hheld⟩ := (duplicateCall_iff hc).mp h
  have hseen := List.map_subset _ (List.drop_subset _ _) hheld
  obtain ⟨a, ha, hakey⟩ := seen_accepted hc before key hseen
  obtain ⟨p, hp, hpkey⟩ := call_key_eq_some_iff.mp hakey
  obtain ⟨q, hq, hqkey⟩ := call_key_eq_some_iff.mp hkey
  exact ⟨a, ha, p, q, hp, hq, hpkey.trans hqkey.symm⟩

theorem call_accepted_subset (g : PythonReplayGuard.ReplayGuard)
    (calls : List PythonReplayGuard.Call) :
    PythonReplayGuard.accepted fromIsoFormat g calls ⊆ calls := by
  induction calls generalizing g with
  | nil => simp [PythonReplayGuard.accepted]
  | cons c calls ih =>
      unfold PythonReplayGuard.accepted
      dsimp only
      split
      · exact List.cons_subset_cons c (ih _)
      · exact List.subset_cons_of_subset c (ih _)

/-- A call that bears a pair, with a timestamp that is not read. -/
def undatedCall (text : String) (p : Pair) : PythonReplayGuard.Call :=
  ⟨0, 0, p.1, some p.2, text⟩

theorem undatedCall_first {text : String} (htext : fromIsoFormat text = none) (hc : 0 < capacity)
    (p : Pair) : PythonReplayGuard.check fromIsoFormat (PythonReplayGuard.new capacity windowSecs)
      (undatedCall text p) = (.ok none, { PythonReplayGuard.new capacity windowSecs with
        seen := [(pairKey p.1 p.2, 0)] }) := by
  have hroom : PythonReplayGuard.makeRoom capacity [] = some [] := by
    rw [PythonReplayGuard.makeRoom, if_neg (by omega)]
  simp [PythonReplayGuard.check, PythonReplayGuard.timestampError, undatedCall, htext,
    PythonReplayGuard.new, hroom]

theorem undatedCall_accepted {text : String} (htext : fromIsoFormat text = none)
    (hc : 0 < capacity) (p : Pair) :
    PythonReplayGuard.accepted fromIsoFormat (PythonReplayGuard.new capacity windowSecs)
      [undatedCall text p] = [undatedCall text p] := by
  simp [PythonReplayGuard.accepted, PythonReplayGuard.accepts, undatedCall_first htext hc]

theorem undatedCall_duplicate {text : String} (htext : fromIsoFormat text = none)
    (hc : 1 < capacity) {p q : Pair} (h : pairKey p.1 p.2 = pairKey q.1 q.2) :
    DuplicateCall fromIsoFormat (PythonReplayGuard.new capacity windowSecs)
      [undatedCall text p] (undatedCall text q) := by
  refine (duplicateCall_iff (by omega)).mpr ⟨?_, pairKey q.1 q.2, rfl, ?_⟩
  · simp [PythonReplayGuard.timestampError, undatedCall, htext]
  · have hafter : PythonReplayGuard.after fromIsoFormat (PythonReplayGuard.new capacity windowSecs)
        [undatedCall text p] = ⟨[(pairKey p.1 p.2, 0)], capacity, windowSecs⟩ :=
      congrArg Prod.snd (undatedCall_first htext (by omega) p)
    have hroom : (⟨[(pairKey p.1 p.2, 0)], capacity, windowSecs⟩ :
        PythonReplayGuard.ReplayGuard).room = [(pairKey p.1 p.2, 0)] :=
      PythonReplayGuard.room_of_lt hc
    rw [hafter, hroom, ← h]
    exact List.mem_singleton_self _

end Python

section Runs
variable {L : LruCache String} (R : L.Recency) {pairs : Set Pair}

include R in
/-- Runs of the Rust guard on pairs that can be told apart have no false alarm, and
only those. -/
theorem noFalseAlarm_iff (parseRfc3339 : String → Option ℤ) (capacity windowSecs : ℕ) :
    (∀ calls, Bears pairOf pairs calls → NoFalseAlarm pairOf
      (ReplayDetection.accepted parseRfc3339 (ReplayDetection.new L capacity windowSecs))
      (Duplicate parseRfc3339 (ReplayDetection.new L capacity windowSecs)) calls) ↔
    Distinguishable pairs := by
  constructor
  · exact distinguishable_of_noFalseAlarm (freshCall parseRfc3339) (fun _ => rfl)
      (freshCall_accepted R) fun _ _ => freshCall_duplicate R
  · intro hpairs calls hbears
    exact noFalseAlarm_of_distinguishable (accepted_subset _)
      (fun _ _ => duplicate_held R) hpairs hbears

/-- The same of the Python guard, which has no alarm at all while it has room for one
pair only. -/
theorem noFalseAlarm_calls_iff {fromIsoFormat : String → Option IsoTime} {text : String}
    (htext : fromIsoFormat text = none) (capacity : ℕ) (windowSecs : ℤ) :
    (∀ calls, Bears pairOfCall pairs calls → NoFalseAlarm pairOfCall
      (PythonReplayGuard.accepted fromIsoFormat (PythonReplayGuard.new capacity windowSecs))
      (DuplicateCall fromIsoFormat (PythonReplayGuard.new capacity windowSecs)) calls) ↔
    capacity ≤ 1 ∨ Distinguishable pairs := by
  constructor
  · intro hnone
    by_cases hc : capacity ≤ 1
    · exact .inl hc
    · right
      exact distinguishable_of_noFalseAlarm (undatedCall text) (fun _ => rfl)
        (undatedCall_accepted htext (by omega))
        (fun _ _ => undatedCall_duplicate htext (by omega)) hnone
  · intro h calls hbears
    by_cases hc : capacity ≤ 1
    · intro before c behind _ hduplicate
      exact (not_duplicate_of_small hc before hduplicate).elim
    · exact noFalseAlarm_of_distinguishable (call_accepted_subset _)
        (fun _ _ => duplicateCall_held (by omega)) (h.resolve_left hc) hbears

end Runs

/-- For exactly which pairs no run of a guard has a false alarm: those of which none
is another one with the colon in another place. The Python guard for a single pair
has no alarm at all. -/
theorem false_alarms_iff {L : LruCache String} (R : L.Recency) (parseRfc3339 : String → Option ℤ)
    (fromIsoFormat : String → Option IsoTime) (text : String) (htext : fromIsoFormat text = none)
    (capacity windowSecs : ℕ) (windowSecs' : ℤ) (pairs : Set Pair) :
    ((∀ calls, Bears pairOf pairs calls → NoFalseAlarm pairOf
        (ReplayDetection.accepted parseRfc3339 (ReplayDetection.new L capacity windowSecs))
        (Duplicate parseRfc3339 (ReplayDetection.new L capacity windowSecs)) calls) ↔
      Distinguishable pairs) ∧
    ((∀ calls, Bears pairOfCall pairs calls → NoFalseAlarm pairOfCall
        (PythonReplayGuard.accepted fromIsoFormat (PythonReplayGuard.new capacity windowSecs'))
        (DuplicateCall fromIsoFormat (PythonReplayGuard.new capacity windowSecs')) calls) ↔
      capacity ≤ 1 ∨ Distinguishable pairs) ∧
    ∀ p q : Pair, p ≠ q → (pairKey p.1 p.2 = pairKey q.1 q.2 ↔ Confusable p q) := by
  refine ⟨noFalseAlarm_iff R parseRfc3339 capacity windowSecs,
    noFalseAlarm_calls_iff htext capacity windowSecs', ?_⟩
  intro p q hne
  rw [pairKey_eq_iff]
  exact ⟨fun h => h.resolve_left hne, .inr⟩

/-- A parser that reads one timestamp. -/
def readsEpoch (text : String) : Option ℤ :=
  if text = "1970-01-01T00:00:00+00:00" then some 0 else none

def readsIsoEpoch (text : String) : Option IsoTime :=
  (readsEpoch text).map fun wall => ⟨wall, some 0⟩

/-- Guards for two pairs take "a:b" with "c" for "a" with "b:c". -/
theorem shifted_colon_rejected :
    (¬ ∀ (parseRfc3339 : String → Option ℤ) (capacity windowSecs : ℕ)
      (calls : List ReplayDetection.Call), NoFalseAlarm pairOf
        (ReplayDetection.accepted parseRfc3339
          (ReplayDetection.new (listCache String) capacity windowSecs))
        (Duplicate parseRfc3339 (ReplayDetection.new (listCache String) capacity windowSecs))
        calls) ∧
    ¬ ∀ (fromIsoFormat : String → Option IsoTime) (capacity : ℕ) (windowSecs : ℤ)
      (calls : List PythonReplayGuard.Call), NoFalseAlarm pairOfCall
        (PythonReplayGuard.accepted fromIsoFormat (PythonReplayGuard.new capacity windowSecs))
        (DuplicateCall fromIsoFormat (PythonReplayGuard.new capacity windowSecs)) calls := by
  have hconfusable : ¬ Distinguishable {("a", "b:c"), ("a:b", "c")} := by
    intro h
    exact h ("a", "b:c") (by simp) ("a:b", "c") (by simp) (.inl ⟨"a", "b", "c", rfl, rfl⟩)
  constructor
  · intro hall
    exact hconfusable ((noFalseAlarm_iff (listRecency String) readsEpoch 2 60).mp
      fun calls _ => hall readsEpoch 2 60 calls)
  · intro hall
    have htext : readsIsoEpoch "" = none := rfl
    exact hconfusable (((noFalseAlarm_calls_iff htext 2 60).mp
      fun calls _ => hall readsIsoEpoch 2 60 calls).resolve_left (by omega))

/-- Ids without a colon, whatever the nonces are. -/
theorem false_alarms_iff_colonless :
    NoFalseAlarm pairOfCall
      (PythonReplayGuard.accepted readsIsoEpoch (PythonReplayGuard.new 2 60))
      (DuplicateCall readsIsoEpoch (PythonReplayGuard.new 2 60))
      [⟨0, 0, "m1", some "n:1", ""⟩, ⟨0, 0, "m1", some "n", ""⟩] := by
  have hpython := (false_alarms_iff (listRecency String) readsEpoch readsIsoEpoch "" rfl 2 60 60
    {p | ':' ∉ p.1.toList}).2.1
  refine hpython.mpr (.inr distinguishable_of_colonless) _ ?_
  intro c hc p hp
  simp only [List.mem_cons, List.not_mem_nil, or_false] at hc
  rcases hc with hc | hc
  · rw [hc] at hp
    cases hp
    decide
  · rw [hc] at hp
    cases hp
    decide

end LdpProtocol.FalseAlarms
