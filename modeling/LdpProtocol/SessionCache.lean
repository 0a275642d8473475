import LdpProtocol.ClientSigning
import LdpProtocol.SessionEstablishment

/-!
# The Rust client's session cache

One caller, any operations in any order, and a peer that answers what it likes.
A cached session is the one its last handshake described, and every use since
has been counted, in 64 bits. An operation on one URL leaves the others alone,
and a handshake that fails leaves all of them alone.
-/
namespace LdpProtocol.SessionCache
open InteractivePrograms InterferedRuns ConcurrentCalls
open InteractivePrograms.Program (call_bind pure_eq ask_bind pure_bind_eq uses_pure)
open JsonValues PayloadModes MessageTypes EnvelopeSigning SessionManager SessionEstablishment

inductive Operation where
  | getOrEstablish (url : String)
  | touch (url : String)
  | close (url : String)
  | closeAll
  deriving DecidableEq

def Operation.program (hmac : Hmac) (config : LdpAdapterConfig) : Operation → ClientProgram Unit
  | .getOrEstablish url => do
      let _ ← SessionManager.getOrEstablish hmac config url
      pure ()
  | .touch url => SessionManager.touch url
  | .close url => SessionManager.close config url
  | .closeAll => SessionManager.closeAll config

/-- One operation from its call to its return. -/
structure Step where
  operation : Operation
  trace : Trace
  before : ClientState
  after : ClientState
  outcome : Except String Unit

/-- Operations one after the other, from an empty cache; the answers are free. -/
inductive Operates (hmac : Hmac) (config : LdpAdapterConfig) : List Step → ClientState → Prop
  | start : Operates hmac config [] .empty
  | operate {log : List Step} {s t : ClientState} {operation : Operation} {tr : Trace}
      {r : Except String Unit} : Operates hmac config log s →
      Run ClientCall.Meaning Quiet (operation.program hmac config) s tr t r →
      Operates hmac config (log ++ [⟨operation, tr, s, t, r⟩]) t

/-- The step established the session and put it into the cache. -/
def Caches (url : String) (session : LdpSession) (x : Step) : Prop :=
  x.operation = .getOrEstablish url ∧ ⟨.insertSession url session, ()⟩ ∈ x.trace

/-- The step puts another session in its place, or removes it. -/
def Ends (url : String) (x : Step) : Prop :=
  x.operation = .close url ∨ x.operation = .closeAll ∨ ∃ session, Caches url session x

/-- The number of `touch` calls. -/
def touches (url : String) (log : List Step) : ℕ :=
  log.countP fun x => decide (x.operation = .touch url)

section Effects
variable {hmac : Hmac} {config : LdpAdapterConfig} {url : String} {s t : ClientState} {tr : Trace}

theorem meaning_of_talks {q : ClientCall} {a : q.Answer} (hq : Talks url q)
    (hm : ClientCall.Meaning q s a t) : t = s := by
  cases q <;> first | exact hm | exact hq.elim

/-- Talking leaves the cache as it is. -/
theorem unmoved_of_talks {α : Type} {p : ClientProgram α} {r : Except String α}
    (hp : p.Uses (fun _ _ => True) (Talks url)) (h : Run ClientCall.Meaning Quiet p s tr t r) :
    t = s ∧ ∀ ev ∈ tr, Talks url ev.1 :=
  ⟨quiet_reaches.mp (h.only_others (fun _ _ _ _ hq hm => meaning_of_talks hq hm) hp),
    h.events (fun _ _ _ _ _ _ => trivial) hp⟩

theorem not_talks_insert {v : String} {session : LdpSession} :
    ¬ Talks url (.insertSession v session) := id

/-- Nothing was put into the cache. -/
def Keeps (s t : ClientState) (tr : Trace) : Prop :=
  t = s ∧ ∀ v opened, ⟨.insertSession v opened, ()⟩ ∉ tr

theorem keeps_of_talks {α : Type} {p : ClientProgram α} {r : Except String α}
    (hp : p.Uses (fun _ _ => True) (Talks url)) (h : Run ClientCall.Meaning Quiet p s tr t r) :
    Keeps s t tr := by
  obtain ⟨ht, htalks⟩ := unmoved_of_talks hp h
  exact ⟨ht, fun v opened hmem => not_talks_insert (htalks _ hmem)⟩

theorem Keeps.trans {u : ClientState} {tr₁ tr₂ : Trace} (h₁ : Keeps s u tr₁)
    (h₂ : Keeps u t tr₂) : Keeps s t (tr₁ ++ tr₂) := by
  refine ⟨h₂.1.trans h₁.1, ?_⟩
  intro v opened hmem
  rcases List.mem_append.mp hmem with hmem | hmem
  · exact h₁.2 v opened hmem
  · exact h₂.2 v opened hmem

/-- What a handshake does: it fails and leaves the cache alone, or it puts the
session it gives. -/
theorem establishAndCache_effect {r : Except String LdpSession}
    (h : Run ClientCall.Meaning Quiet (establishAndCache hmac config url) s tr t r) :
    (Keeps s t tr ∧ ∃ error, r = .error error) ∨
    (∃ session, r = .ok session ∧ ⟨.insertSession url session, ()⟩ ∈ tr ∧
      Shaken hmac config url tr session ∧
      t = { s with sessions := s.sessions.insert url session }) := by
  unfold establishAndCache insertSession at h
  rcases h.of_bind with ⟨session, t₁, tr₁, tr₂, h₁, h₂, htr⟩ | ⟨error, h₁, hr⟩
  · have hkept := keeps_of_talks (establishSession_talks hmac config url) h₁
    simp only [call_bind, pure_eq, quiet_ask, quiet_pure] at h₂
    obtain ⟨_, t₂, _, ht₂, ⟨ht, hnil, hr⟩, htr₂⟩ := h₂
    have hput : t₂ = { t₁ with sessions := t₁.sessions.insert url session } := ht₂
    refine .inr ⟨session, hr, ?_, ?_, ?_⟩
    · rw [htr, htr₂]
      simp
    · exact (establishSession_done (along_of_run h₁)).mono (by rw [htr]; simp)
    · rw [ht, hput, hkept.1]
  · exact .inl ⟨keeps_of_talks (establishSession_talks hmac config url) h₁, error, hr⟩

/-- The cache is left alone, or a handshake has put the session that is returned. -/
def KeepsOrPuts (hmac : Hmac) (config : LdpAdapterConfig) (url : String) (s t : ClientState)
    (tr : Trace) (r : Except String LdpSession) : Prop :=
  Keeps s t tr ∨
    (∃ session, r = .ok session ∧ ⟨.insertSession url session, ()⟩ ∈ tr ∧
      Shaken hmac config url tr session ∧
      t = { s with sessions := s.sessions.insert url session })

theorem Keeps.establish {u : ClientState} {before rest : Trace} {r : Except String LdpSession}
    (hbefore : Keeps s u before)
    (hrest : Run ClientCall.Meaning Quiet (establishAndCache hmac config url) u rest t r) :
    KeepsOrPuts hmac config url s t (before ++ rest) r := by
  rcases establishAndCache_effect hrest with ⟨hkept, _⟩ | ⟨session, hr, hput, hshaken, ht⟩
  · exact .inl (hbefore.trans hkept)
  · refine .inr ⟨session, hr, List.mem_append_right _ hput, hshaken.mono (by simp), ?_⟩
    rw [ht, hbefore.1]

theorem getOrEstablish_effect {r : Except String LdpSession}
    (h : Run ClientCall.Meaning Quiet (getOrEstablish hmac config url) s tr t r) :
    KeepsOrPuts hmac config url s t tr r := by
  unfold getOrEstablish getSession at h
  simp only [call_bind, quiet_ask] at h
  obtain ⟨cached, t₁, tr₁, ⟨_, ht₁⟩, hrest, htr⟩ := h
  have hlookup : Keeps s t₁ [⟨.getSession url, cached⟩] := ⟨ht₁, by simp⟩
  rw [htr]
  cases cached with
  | none => exact hlookup.establish hrest
  | some found =>
      rcases hrest.of_bind with ⟨active, t₂, tr₂, tr₃, h₂, h₃, htr₁⟩ | ⟨error, h₂, hr⟩
      · have hkept := hlookup.trans (keeps_of_talks (isActive_talks url found) h₂)
        rw [htr₁]
        cases active with
        | true =>
            simp only [pure_eq, if_true, quiet_pure] at h₃
            rw [h₃.1, h₃.2.1, List.append_nil]
            exact .inl hkept
        | false => exact hkept.establish h₃
      · exact .inl (hlookup.trans (keeps_of_talks (isActive_talks url found) h₂))

theorem close_effect {r : Except String Unit}
    (h : Run ClientCall.Meaning Quiet (close config url) s tr t r) :
    t = { s with sessions := s.sessions.erase url } ∧ r = .ok () := by
  unfold close removeSession at h
  simp only [call_bind, quiet_ask] at h
  obtain ⟨removed, t₁, tr₁, ⟨_, ht₁⟩, hrest, _⟩ := h
  cases removed with
  | none =>
      simp only [pure_eq, quiet_pure] at hrest
      exact ⟨hrest.1.trans ht₁, hrest.2.2⟩
  | some session =>
      have htalks : (newEnvelope session.sessionId config.delegateId session.remoteDelegateId
          (.sessionClose none) session.payload.mode >>= fun closeMsg =>
            sendMessage url closeMsg >>= fun _ => (pure () : ClientProgram Unit)).Uses
          (fun _ _ => True) (Talks url) :=
        newEnvelope_uses trivial trivial fun closeMsg _ => ⟨rfl, fun _ _ => uses_pure _⟩
      refine ⟨(unmoved_of_talks htalks hrest).1.trans ht₁, ?_⟩
      unfold newEnvelope newV4 utcNowRfc3339 sendMessage at hrest
      simp only [call_bind, pure_eq, ask_bind, pure_bind_eq, quiet_ask, quiet_pure] at hrest
      obtain ⟨_, _, _, _, ⟨_, _, _, _, ⟨_, _, _, _, ⟨_, _, hr⟩, _⟩, _⟩, _⟩ := hrest
      exact hr

theorem closeEach_effect {urls : List String} {r : Except String Unit}
    (h : Run ClientCall.Meaning Quiet (closeEach config urls) s tr t r) (v : String) :
    t.sessions.lookup v = if v ∈ urls then none else s.sessions.lookup v := by
  induction urls generalizing s tr with
  | nil =>
      simp only [closeEach, pure_eq, quiet_pure] at h
      simp [h.1]
  | cons url urls ih =>
      simp only [closeEach] at h
      rcases h.of_bind with ⟨_, t₁, tr₁, tr₂, h₁, h₂, _⟩ | ⟨error, h₁, _⟩
      · rw [ih h₂, (close_effect h₁).1]
        by_cases hv : v = url
        · subst hv
          simp
        · simp [hv, AList.lookup_erase_ne hv]
      · have hok := (close_effect h₁).2
        cases hok

/-- After `close_all` nothing is cached. -/
theorem closeAll_effect {r : Except String Unit}
    (h : Run ClientCall.Meaning Quiet (closeAll config) s tr t r) (v : String) :
    t.sessions.lookup v = none := by
  unfold closeAll sessionUrls at h
  simp only [call_bind, quiet_ask] at h
  obtain ⟨urls, t₁, tr₁, ⟨hurls, ht₁⟩, hrest, _⟩ := h
  rw [closeEach_effect hrest v, ht₁]
  split
  · rfl
  · next hv =>
      apply AList.lookup_eq_none.mpr
      rw [AList.mem_keys, ← hurls.mem_iff]
      exact hv

theorem touch_effect {r : Except String Unit}
    (h : Run ClientCall.Meaning Quiet (touch url) s tr t r) :
    ∃ now, t = { s with sessions := touched s.sessions url now } := by
  unfold touch touchSession at h
  have hask : Run ClientCall.Meaning Quiet (Program.ask (ClientCall.touchSession url) .pure) s tr t
    r := h
  simp only [quiet_ask, quiet_pure] at hask
  obtain ⟨_, t₁, _, ⟨now, ht₁⟩, ⟨ht, _⟩, _⟩ := hask
  exact ⟨now, ht.trans ht₁⟩

end Effects

theorem dlookup_kreplace {K γ : Type} [DecidableEq K] (a : K) (b : γ) (v : K)
    (l : List ((_ : K) × γ)) :
    List.dlookup v (List.kreplace a b l) =
      if v = a then (List.dlookup a l).map fun _ => b else List.dlookup v l := by
  induction l with
  | nil => simp [List.kreplace]
  | cons x l ih =>
      obtain ⟨k, c⟩ := x
      unfold List.kreplace at ih ⊢
      by_cases hk : a = k
      · subst hk
        rw [List.lookmap_cons_some (b := ⟨a, b⟩) _ _ (by simp)]
        by_cases hv : v = a
        · subst hv
          simp
        · rw [List.dlookup_cons_ne _ _ hv, if_neg hv, List.dlookup_cons_ne _ _ hv]
      · rw [List.lookmap_cons_none _ _ (by simp [hk])]
        by_cases hv : v = k
        · subst hv
          rw [List.dlookup_cons_eq, if_neg (Ne.symm hk), List.dlookup_cons_eq]
        · rw [List.dlookup_cons_ne _ _ hv, ih, List.dlookup_cons_ne _ _ hk,
            List.dlookup_cons_ne _ _ hv]

/-- A session after one more use. -/
def used (now : ℤ) (session : LdpSession) : LdpSession :=
  { session with lastUsed := now, taskCount := session.taskCount + 1 }

theorem lookup_touched (sessions : AList fun _ : String => LdpSession) (url : String) (now : ℤ)
    (v : String) : (touched sessions url now).lookup v =
      if v = url then (sessions.lookup url).map (used now) else sessions.lookup v := by
  cases hl : sessions.lookup url with
  | none =>
      have hsame : touched sessions url now = sessions := by
        unfold touched
        rw [hl]
      rw [hsame]
      by_cases hv : v = url
      · rw [if_pos hv, hv, hl, Option.map_none]
      · rw [if_neg hv]
  | some session =>
      have htouched : touched sessions url now = sessions.replace url (used now session) := by
        unfold touched
        rw [hl]
        rfl
      have hreplaced := dlookup_kreplace url (used now session) v sessions.entries
      have hentry : List.dlookup url sessions.entries = some session := hl
      rw [hentry] at hreplaced
      rw [htouched]
      exact hreplaced

/-- A session in the cache was there before, but for its uses, or has just been put. -/
theorem held_before {q : ClientCall} {s t : ClientState} {a : q.Answer} {url : String}
    {session : LdpSession} (hm : ClientCall.Meaning q s a t)
    (hl : t.sessions.lookup url = some session) :
    (∃ held, s.sessions.lookup url = some held ∧ held.sessionId = session.sessionId) ∨
      q = .insertSession url session := by
  cases q with
  | insertSession v opened =>
      have ht : t = _ := hm
      rw [ht] at hl
      by_cases hv : url = v
      · subst hv
        rw [AList.lookup_insert] at hl
        cases hl
        exact .inr rfl
      · rw [AList.lookup_insert_ne hv] at hl
        exact .inl ⟨session, hl, rfl⟩
  | touchSession v =>
      obtain ⟨now, ht⟩ := hm
      rw [ht, lookup_touched] at hl
      split at hl
      · next hv =>
          obtain ⟨held, hbefore, hused⟩ := Option.map_eq_some_iff.mp hl
          rw [hv]
          exact .inl ⟨held, hbefore, hused ▸ rfl⟩
      · exact .inl ⟨session, hl, rfl⟩
  | removeSession v =>
      rw [hm.2] at hl
      by_cases hv : url = v
      · subst hv
        simp at hl
      · rw [AList.lookup_erase_ne hv] at hl
        exact .inl ⟨session, hl, rfl⟩
  | getSession | sessionUrls | getContract =>
      rw [hm.2] at hl
      exact .inl ⟨session, hl, rfl⟩
  | _ =>
      have ht : t = _ := hm
      rw [ht] at hl
      exact .inl ⟨session, hl, rfl⟩

section Runs
variable {hmac : Hmac} {config : LdpAdapterConfig} {log : List Step} {s t : ClientState}
  {url : String} {x : Step}

/-- The session was put by a handshake, nothing has ended it since, and it has
been used as often as it was touched. -/
def Held (hmac : Hmac) (config : LdpAdapterConfig) (log : List Step) (url : String)
    (session : LdpSession) : Prop :=
  ∃ earlier x later opened lastUsed, log = earlier ++ x :: later ∧ Caches url opened x ∧
    Shaken hmac config url x.trace opened ∧ (∀ y ∈ later, ¬ Ends url y) ∧
    session = { opened with
      lastUsed := lastUsed
      taskCount := UInt64.ofNat (touches url later) }

theorem touches_concat (url : String) (log : List Step) (x : Step) :
    touches url (log ++ [x]) =
      touches url log + if x.operation = .touch url then 1 else 0 := by
  simp [touches]

theorem Held.keep {session : LdpSession} (h : Held hmac config log url session)
    (hends : ¬ Ends url x) (htouch : x.operation ≠ .touch url) :
    Held hmac config (log ++ [x]) url session := by
  obtain ⟨earlier, y, later, opened, lastUsed, hlog, hcaches, hshaken, hlater, hsession⟩ := h
  refine ⟨earlier, y, later ++ [x], opened, lastUsed, by rw [hlog]; simp, hcaches, hshaken, ?_, ?_⟩
  · intro z hz
    rcases List.mem_append.mp hz with hz | hz
    · exact hlater z hz
    · rw [List.mem_singleton.mp hz]
      exact hends
  · rw [hsession, touches_concat, if_neg htouch, Nat.add_zero]

theorem not_ends_of (hclose : x.operation ≠ .close url) (hall : x.operation ≠ .closeAll)
    (hcaches : ∀ opened, ¬ Caches url opened x) : ¬ Ends url x := by
  intro hends
  rcases hends with h | h | ⟨opened, h⟩
  · exact hclose h
  · exact hall h
  · exact hcaches opened h

theorem not_ends_of_touch {v : String} (h : x.operation = .touch v) : ¬ Ends url x :=
  not_ends_of (by simp [h]) (by simp [h]) fun opened hcaches => by simp [Caches, h] at hcaches

theorem Held.touch {session : LdpSession} (h : Held hmac config log url session) (now : ℤ)
    (htouch : x.operation = .touch url) :
    Held hmac config (log ++ [x]) url (used now session) := by
  obtain ⟨earlier, y, later, opened, lastUsed, hlog, hcaches, hshaken, hlater, hsession⟩ := h
  refine ⟨earlier, y, later ++ [x], opened, now, by rw [hlog]; simp, hcaches, hshaken, ?_, ?_⟩
  · intro z hz
    rcases List.mem_append.mp hz with hz | hz
    · exact hlater z hz
    · rw [List.mem_singleton.mp hz]
      exact not_ends_of_touch htouch
  · have hcount : UInt64.ofNat (touches url later) + 1 =
        UInt64.ofNat (touches url (later ++ [x])) := by
      rw [touches_concat, if_pos htouch, UInt64.ofNat_add]
      rfl
    rw [hsession, ← hcount]
    rfl

/-- An operation on a URL. -/
def About (url : String) : Operation → Prop
  | .getOrEstablish u | .touch u | .close u => u = url
  | .closeAll => False

/-- What an operation does to the entries of the cache. -/
theorem step_effect (h : Run ClientCall.Meaning Quiet (x.operation.program hmac config) x.before
    x.trace x.after x.outcome) :
    (∃ url, x.operation = .getOrEstablish url ∧
      (Keeps x.before x.after x.trace ∨
        ∃ session, x.outcome = .ok () ∧ Caches url session x ∧
          Shaken hmac config url x.trace session ∧ x.after =
            { x.before with sessions := x.before.sessions.insert url session })) ∨
    (∃ url now, x.operation = .touch url ∧
      x.after = { x.before with sessions := touched x.before.sessions url now }) ∨
    (∃ url, x.operation = .close url ∧
      x.after = { x.before with sessions := x.before.sessions.erase url }) ∨
    (x.operation = .closeAll ∧ ∀ v, x.after.sessions.lookup v = none) := by
  obtain ⟨operation, tr, s, t, r⟩ := x
  cases operation with
  | getOrEstablish url =>
      refine .inl ⟨url, rfl, ?_⟩
      rcases h.of_bind with ⟨session, t₁, tr₁, tr₂, h₁, h₂, htr⟩ | ⟨error, h₁, hr⟩
      · simp only [pure_eq, quiet_pure] at h₂
        obtain ⟨ht, hnil, hr⟩ := h₂
        have htrace : tr = tr₁ := by simpa [hnil] using htr
        rw [← ht, ← htrace] at h₁
        rcases getOrEstablish_effect h₁ with hkeeps | ⟨opened, _, hput, hshaken, hafter⟩
        · exact .inl hkeeps
        · exact .inr ⟨opened, hr, ⟨rfl, hput⟩, hshaken, hafter⟩
      · rcases getOrEstablish_effect h₁ with hkeeps | ⟨opened, hok, _⟩
        · exact .inl hkeeps
        · cases hok
  | touch url =>
      obtain ⟨now, ht⟩ := touch_effect h
      exact .inr (.inl ⟨url, now, rfl, ht⟩)
  | close url => exact .inr (.inr (.inl ⟨url, rfl, (close_effect h).1⟩))
  | closeAll => exact .inr (.inr (.inr ⟨rfl, closeAll_effect h⟩))

theorem Operates.split (h : Operates hmac config log s) (hx : x ∈ log) :
    Run ClientCall.Meaning Quiet (x.operation.program hmac config) x.before x.trace x.after
      x.outcome := by
  induction h with
  | start => cases hx
  | operate _ hrun ih =>
      rcases List.mem_append.mp hx with hold | hnew
      · exact ih hold
      · rw [List.mem_singleton.mp hnew]
        exact hrun

/-- Whatever the peers answer, every cached session is one that a handshake put. -/
theorem Operates.held (h : Operates hmac config log s) {url : String} {session : LdpSession}
    (hl : s.sessions.lookup url = some session) : Held hmac config log url session := by
  induction h generalizing url session with
  | start => cases hl
  | @operate log s t operation tr r _ hrun ih =>
      rcases step_effect (x := ⟨operation, tr, s, t, r⟩) hrun with
        ⟨v, hop, ⟨hsame, hnone⟩ | ⟨opened, _, hcaches, hshaken, ht⟩⟩ | ⟨v, now, hop, ht⟩ |
        ⟨v, hop, ht⟩ | ⟨hop, hnone⟩
      · dsimp only at hop hsame
        rw [hsame] at hl
        refine (ih hl).keep (not_ends_of (by simp [hop]) (by simp [hop]) ?_) (by simp [hop])
        exact fun opened hcaches => hnone url opened hcaches.2
      · dsimp only at hop ht
        rw [ht] at hl
        by_cases hv : url = v
        · subst hv
          rw [AList.lookup_insert] at hl
          cases hl
          refine ⟨log, _, [], session, session.lastUsed, rfl, hcaches, hshaken, by simp, ?_⟩
          obtain ⟨_, _, _, _, _, _, _, _, _, _, _, _, _, _, hsession⟩ := hshaken
          rw [hsession]
          rfl
        · rw [AList.lookup_insert_ne hv] at hl
          refine (ih hl).keep (not_ends_of (by simp [hop]) (by simp [hop]) ?_) (by simp [hop])
          intro other hother
          have hget := hother.1
          rw [hop] at hget
          cases hget
          exact hv rfl
      · dsimp only at hop ht
        rw [ht, lookup_touched] at hl
        by_cases hv : url = v
        · subst hv
          rw [if_pos rfl, Option.map_eq_some_iff] at hl
          obtain ⟨before, hbefore, hafter⟩ := hl
          rw [← hafter]
          exact (ih hbefore).touch now hop
        · rw [if_neg hv] at hl
          refine (ih hl).keep (not_ends_of_touch hop) ?_
          rw [hop]
          intro heq
          cases heq
          exact hv rfl
      · dsimp only at hop ht
        rw [ht] at hl
        by_cases hv : url = v
        · subst hv
          rw [AList.lookup_erase] at hl
          cases hl
        · rw [AList.lookup_erase_ne hv] at hl
          have hclose : operation ≠ .close url := by
            rw [hop]
            intro heq
            cases heq
            exact hv rfl
          refine (ih hl).keep (not_ends_of hclose (by simp [hop]) ?_) (by simp [hop])
          exact fun other hother => by simp [Caches, hop] at hother
      · rw [hnone url] at hl
        cases hl

/-- The modes a manifest names, none where it names none that can be read. -/
def namedModes (capabilities : Value) : List PayloadMode :=
  ((capabilities.get "supported_modes").bind (Value.asArray PayloadMode.fromValue)).getD []

/-- An implemented mode that both the preferences and the manifest name. -/
def Offered (config : LdpAdapterConfig) (capabilities : Value) (mode : PayloadMode) : Prop :=
  mode.isImplemented = true ∧ mode ∈ config.session.preferredPayloadModes ∧
    mode ∈ namedModes capabilities

/-- A mode other than text that is taken from a manifest is named there. -/
theorem mem_namedModes {capabilities : Value} {mode : PayloadMode}
    (h : mode ∈ remoteModes capabilities) : mode = .text ∨ mode ∈ namedModes capabilities := by
  unfold remoteModes namedModes at *
  cases hnamed : (capabilities.get "supported_modes").bind
      (Value.asArray PayloadMode.fromValue) with
  | none =>
      rw [hnamed] at h
      exact .inl (List.mem_singleton.mp h)
  | some modes =>
      rw [hnamed] at h
      exact .inr h

theorem negotiated_offered (config : LdpAdapterConfig) (capabilities : Value) :
    let payload := negotiatePayloadMode config.session.preferredPayloadModes
      (remoteModes capabilities)
    (payload.mode = .text ∨ Offered config capabilities payload.mode) ∧
      ∀ mode ∈ payload.fallbackChain, Offered config capabilities mode ∧
        mode.modeNumber < payload.mode.modeNumber := by
  constructor
  · rw [negotiatePayloadMode_mode]
    rcases agreedMode_cases PayloadMode.isImplemented config.session.preferredPayloadModes
      (remoteModes capabilities) with htext | ⟨himpl, hours, htheirs⟩
    · exact .inl htext
    · rcases mem_namedModes htheirs with htext | hnamed
      · exact .inl htext
      · exact .inr ⟨himpl, hours, hnamed⟩
  · intro mode hmode
    obtain ⟨hours, himpl, htheirs, hlower⟩ := mem_fallbackChain.mp hmode
    refine ⟨⟨himpl, hours, ?_⟩, hlower⟩
    by_cases hnamed : ((capabilities.get "supported_modes").bind
        (Value.asArray PayloadMode.fromValue)).isSome = true
    · obtain ⟨modes, hmodes⟩ := Option.isSome_iff_exists.mp hnamed
      simpa [remoteModes, namedModes, hmodes] using htheirs
    · -- a manifest that cannot be read leaves text, and nothing is below text
      have hnone : remoteModes capabilities = [.text] := by
        simp [remoteModes, Option.not_isSome_iff_eq_none.mp hnamed]
      rw [hnone] at hlower htheirs
      rcases agreedMode_cases PayloadMode.isImplemented config.session.preferredPayloadModes
        [.text] with htext | ⟨_, _, htext⟩
      · rw [negotiatePayloadMode_mode, htext] at hlower
        exact absurd hlower (Nat.not_lt_zero _)
      · rw [negotiatePayloadMode_mode, List.mem_singleton.mp htext] at hlower
        exact absurd hlower (Nat.not_lt_zero _)

theorem About.frame {url v : String} (habout : About url x.operation) (hv : v ≠ url)
    (h : Run ClientCall.Meaning Quiet (x.operation.program hmac config) x.before x.trace x.after
      x.outcome) :
    x.after.sessions.lookup v = x.before.sessions.lookup v := by
  rcases step_effect h with ⟨u, hop, hkeeps | ⟨opened, _, _, _, hafter⟩⟩ | ⟨u, now, hop, hafter⟩ |
    ⟨u, hop, hafter⟩ | ⟨hop, _⟩
  · rw [hkeeps.1]
  · rw [hop] at habout
    have hu : u = url := habout
    rw [hafter, hu, AList.lookup_insert_ne hv]
  · rw [hop] at habout
    have hu : u = url := habout
    rw [hafter, hu, lookup_touched, if_neg hv]
  · rw [hop] at habout
    have hu : u = url := habout
    rw [hafter, hu, AList.lookup_erase_ne hv]
  · rw [hop] at habout
    exact habout.elim

/-- After any operations against any peers, every cached session is for its URL,
active, as long-lived as configured, and in a mode that was negotiated from the
manifest of its own handshake; it counts, in 64 bits, the `touch` calls since. An
operation leaves the entries of other URLs alone, and a handshake that fails
leaves the cache alone. -/
theorem cache_history (hmac : Hmac) (config : LdpAdapterConfig) (log : List Step)
    (s : ClientState) (h : Operates hmac config log s) :
    (∀ url session, s.sessions.lookup url = some session →
      session.remoteUrl = url ∧ session.state = .active ∧
      session.ttlSecs = config.session.ttlSecs ∧
      ∃ earlier x later opened hello manifest capabilities, log = earlier ++ x :: later ∧
        Caches url opened x ∧ (∀ y ∈ later, ¬ Ends url y) ∧
        ⟨.sendMessage url hello, .ok manifest⟩ ∈ x.trace ∧
        manifest.body = .capabilityManifest capabilities ∧
        (session.payload.mode = .text ∨ Offered config capabilities session.payload.mode) ∧
        (∀ mode ∈ session.payload.fallbackChain, Offered config capabilities mode ∧
          mode.modeNumber < session.payload.mode.modeNumber) ∧
        session.taskCount.toNat = touches url later % 2 ^ 64) ∧
    (∀ x ∈ log, ∀ url v, About url x.operation → v ≠ url →
      x.after.sessions.lookup v = x.before.sessions.lookup v) ∧
    (∀ x ∈ log, ∀ url error, x.operation = .getOrEstablish url → x.outcome = .error error →
      x.after.sessions = x.before.sessions) := by
  refine ⟨?_, ?_, ?_⟩
  · intro url session hl
    obtain ⟨earlier, x, later, opened, lastUsed, hlog, hcaches, hshaken, hlater, hsession⟩ :=
      h.held hl
    obtain ⟨hello, manifest, capabilities, _, _, acceptedId, _, now, hsent, _, hmanifest, _, _, _,
      hopened⟩ := hshaken
    have hoffered := negotiated_offered config capabilities
    rw [hsession, hopened]
    refine ⟨rfl, rfl, rfl, earlier, x, later, opened, _, manifest, capabilities, hlog, hcaches,
      hlater, hsent, hmanifest, hoffered.1, hoffered.2, ?_⟩
    exact UInt64.toNat_ofNat'
  · intro x hx url v habout hv
    exact habout.frame hv (h.split hx)
  · intro x hx url error hop herror
    rcases step_effect (h.split hx) with ⟨u, _, hkeeps | ⟨opened, hok, _⟩⟩ | ⟨u, now, hother, _⟩ |
      ⟨u, hother, _⟩ | ⟨hother, _⟩
    · rw [hkeeps.1]
    · rw [herror] at hok
      cases hok
    · rw [hop] at hother
      cases hother
    · rw [hop] at hother
      cases hother
    · rw [hop] at hother
      cases hother

end Runs

/-- A first handshake with a peer that accepts. -/
def firstStep : Step :=
  let out := Program.exec ClientSigning.accepting
    (Operation.program submissionMac {} (.getOrEstablish "u")) ClientState.empty
  ⟨.getOrEstablish "u", out.1, .empty, out.2.1, out.2.2⟩

theorem firstStep_operates : Operates submissionMac {} [firstStep] firstStep.after :=
  .operate .start (exec_run ClientSigning.accepting ClientSigning.accepting_meaning _ _)

theorem firstStep_cached : ∃ session, firstStep.after.sessions.lookup "u" = some session ∧
    session.taskCount = 0 := ⟨_, rfl, rfl⟩

theorem touched_often {log : List Step} {s : ClientState} {url : String} {session : LdpSession}
    (h : Operates submissionMac {} log s) (hl : s.sessions.lookup url = some session) (n : ℕ) :
    ∃ later t last, Operates submissionMac {} (log ++ later) t ∧ later.length = n ∧
      (∀ y ∈ later, y.operation = .touch url) ∧ t.sessions.lookup url = some last ∧
      last.taskCount = session.taskCount + UInt64.ofNat n := by
  induction n with
  | zero => exact ⟨[], s, session, by simpa using h, rfl, by simp, hl, by simp⟩
  | succ n ih =>
      obtain ⟨later, t, last, hoperates, hlen, hall, hlast, hcount⟩ := ih
      have hrun : Run ClientCall.Meaning Quiet (Operation.program submissionMac {} (.touch url)) t
          [⟨.touchSession url, ()⟩] { t with sessions := touched t.sessions url 0 } (.ok ()) :=
        exec_run ClientCall.offline ClientCall.offline_meaning _ t
      refine ⟨later ++ [⟨.touch url, [⟨.touchSession url, ()⟩], t,
        { t with sessions := touched t.sessions url 0 }, .ok ()⟩],
        { t with sessions := touched t.sessions url 0 }, used 0 last, ?_,
        by simp [hlen], ?_, ?_, ?_⟩
      · rw [← List.append_assoc]
        exact hoperates.operate hrun
      · intro y hy
        rcases List.mem_append.mp hy with hy | hy
        · exact hall y hy
        · rw [List.mem_singleton.mp hy]
      · dsimp only
        rw [lookup_touched, if_pos rfl, hlast, Option.map_some]
      · rw [UInt64.ofNat_add, ← add_assoc, ← hcount]
        rfl

/-- A session touched once. -/
theorem cache_history_touched : ∃ log s session, Operates submissionMac {} log s ∧
    s.sessions.lookup "u" = some session ∧ session.remoteUrl = "u" ∧ session.state = .active := by
  obtain ⟨session, hl, _⟩ := firstStep_cached
  obtain ⟨later, t, last, hoperates, _, _, hlast, _⟩ := touched_often firstStep_operates hl 1
  have hentry := (cache_history submissionMac {} _ t hoperates).1 "u" last hlast
  exact ⟨_, t, last, hoperates, hlast, hentry.1, hentry.2.1⟩

/-- The count comes back to zero. -/
theorem count_wraps : ¬ ∀ (hmac : Hmac) (config : LdpAdapterConfig) (log : List Step)
    (s : ClientState), Operates hmac config log s → ∀ url session,
    s.sessions.lookup url = some session → ∃ earlier x later opened,
      log = earlier ++ x :: later ∧ Caches url opened x ∧ (∀ y ∈ later, ¬ Ends url y) ∧
      session.taskCount.toNat = touches url later := by
  intro h
  obtain ⟨session, hl, hzero⟩ := firstStep_cached
  obtain ⟨later, t, last, hoperates, hlen, hall, hlast, hcount⟩ :=
    touched_often firstStep_operates hl (2 ^ 64)
  obtain ⟨earlier, x, rest, opened, hlog, hcaches, _, htouches⟩ :=
    h _ _ _ t hoperates "u" last hlast
  cases earlier with
  | cons y earlier =>
      have hfront : firstStep :: later = y :: (earlier ++ x :: rest) := hlog
      have hx : x ∈ later := by
        rw [(List.cons.inj hfront).2]
        simp
      have htouch := hall x hx
      rw [hcaches.1] at htouch
      cases htouch
  | nil =>
      have hfront : firstStep :: later = x :: rest := hlog
      have hrest : rest = later := (List.cons.inj hfront).2.symm
      have hmany : touches "u" later = 2 ^ 64 := by
        rw [← hlen]
        apply List.countP_eq_length.mpr
        intro y hy
        exact decide_eq_true (hall y hy)
      rw [hrest, hmany, hcount, hzero, zero_add, UInt64.toNat_ofNat', Nat.mod_self] at htouches
      cases htouches

end LdpProtocol.SessionCache
