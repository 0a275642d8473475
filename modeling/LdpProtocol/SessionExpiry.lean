import LdpProtocol.SessionCache

/-!
# When a cached session expires

A session is reused as long as the whole seconds since its last use are fewer
than its time to live. The time to live is cast to a signed integer first, and one
from `2 ^ 63` on becomes negative: such a session is never reused.
-/
namespace LdpProtocol.SessionExpiry
open InteractivePrograms InterferedRuns ConcurrentCalls
open InteractivePrograms.Program (call_bind pure_eq ask_bind pure_bind_eq)
open JsonValues PayloadModes MessageTypes EnvelopeSigning SessionManager SessionEstablishment
  SessionCache

/-- The step is a use of the session at this reading of the clock. -/
def UsedAt (url : String) (t₀ : ℤ) (x : Step) : Prop :=
  (x.operation = .touch url ∧
    x.after = { x.before with sessions := touched x.before.sessions url t₀ }) ∨
  ∃ session, Caches url session x ∧ x.after.sessions.lookup url = some session ∧
    session.createdAt = t₀

/-- The step creates the session or touches it. -/
def Uses (url : String) (x : Step) : Prop :=
  x.operation = .touch url ∨ ∃ session, Caches url session x

/-- After some operations `get_or_establish` is called at `t`, for a session that was
last used at `t₀`. -/
def AskedAt (hmac : Hmac) (config : LdpAdapterConfig) (url : String) (t₀ t : ℤ)
    (session : LdpSession) (tr : Trace) (r : Except String LdpSession) : Prop :=
  ∃ log s x u, Operates hmac config log s ∧ s.sessions.lookup url = some session ∧
    Latest (UsedAt url t₀) (Uses url) log x ∧
    Run ClientCall.Meaning Quiet (getOrEstablish hmac config url) s tr u r ∧
    tr[1]? = some ⟨.utcNow, t⟩

/-- The cached session is returned, and no message is sent. -/
def Reused (session : LdpSession) (tr : Trace) (r : Except String LdpSession) : Prop :=
  r = .ok session ∧ ∀ url message a, ⟨.sendMessage url message, a⟩ ∉ tr

/-- Whole seconds, as many as there are. -/
def elapsed (t₀ t : ℤ) : ℤ := (t - t₀) / 1000000000

section
variable {hmac : Hmac} {config : LdpAdapterConfig} {log : List Step} {s t' : ClientState}
  {url : String} {session : LdpSession} {t₀ t : ℤ} {tr : Trace} {r : Except String LdpSession}

theorem latest_other {x y : Step} (h : Latest (UsedAt url t₀) (Uses url) (log ++ [y]) x)
    (hy : ¬ Uses url y) : Latest (UsedAt url t₀) (Uses url) log x := by
  rcases latest_concat.mp h with ⟨hused, _⟩ | ⟨hold, _⟩
  · rcases hused with ⟨htouch, _⟩ | ⟨opened, hcaches, _⟩
    · exact (hy (.inl htouch)).elim
    · exact (hy (.inr ⟨opened, hcaches⟩)).elim
  · exact hold

theorem lastUsed_of_shaken (h : Shaken hmac config url tr session) :
    session.lastUsed = session.createdAt := by
  obtain ⟨_, _, _, _, _, _, _, _, _, _, _, _, _, _, hsession⟩ := h
  rw [hsession]
  rfl

theorem not_uses {x : Step} {operation : Operation} (hop : x.operation = operation)
    (htouch : operation ≠ .touch url) (hopen : operation ≠ .getOrEstablish url) :
    ¬ Uses url x := by
  intro huses
  rcases huses with htouched | ⟨opened, hcaches⟩
  · exact htouch (hop.symm.trans htouched)
  · exact hopen (hop.symm.trans hcaches.1)

/-- A session that has just been opened was used when it was created. -/
theorem lastUsed_opened {y x : Step} (hop : y.operation = .getOrEstablish url)
    (hcaches : Caches url session y) (hshaken : Shaken hmac config url y.trace session)
    (hheld : y.after.sessions.lookup url = some session)
    (hx : Latest (UsedAt url t₀) (Uses url) (log ++ [y]) x) : session.lastUsed = t₀ := by
  rcases latest_concat.mp hx with ⟨⟨htouch, _⟩ | ⟨created, _, hcreated, hat⟩, _⟩ | ⟨_, hno⟩
  · rw [hop] at htouch
    cases htouch
  · cases hheld.symm.trans hcreated
    rw [← hat]
    exact lastUsed_of_shaken hshaken
  · exact (hno (.inr ⟨session, hcaches⟩)).elim

/-- One that has just been touched was used then. -/
theorem lastUsed_touched {y x : Step} (hop : y.operation = .touch url)
    (hl : y.after.sessions.lookup url = some session)
    (hx : Latest (UsedAt url t₀) (Uses url) (log ++ [y]) x) : session.lastUsed = t₀ := by
  rcases latest_concat.mp hx with ⟨⟨_, hat⟩ | ⟨opened, hcaches, _⟩, _⟩ | ⟨_, hno⟩
  · rw [hat, lookup_touched, if_pos rfl] at hl
    obtain ⟨before, _, hused⟩ := Option.map_eq_some_iff.mp hl
    rw [← hused]
    rfl
  · rw [hcaches.1] at hop
    cases hop
  · exact (hno (.inl hop)).elim

/-- The session carries the reading of its last use. -/
theorem lastUsed_of_latest (h : Operates hmac config log s)
    (hl : s.sessions.lookup url = some session) {x : Step}
    (hx : Latest (UsedAt url t₀) (Uses url) log x) : session.lastUsed = t₀ := by
  induction h generalizing session x with
  | start => exact (not_latest_nil hx).elim
  | @operate log s t operation tr r _ hrun ih =>
      let y : Step := ⟨operation, tr, s, t, r⟩
      rcases step_effect (x := y) hrun with
        ⟨v, hop, ⟨hsame, hnone⟩ | ⟨opened, _, hcaches, hshaken, ht⟩⟩ | ⟨v, now, hop, ht⟩ |
        ⟨v, hop, ht⟩ | ⟨_, hnone⟩
      · have hy : ¬ Uses url y := by
          intro huses
          rcases huses with htouch | ⟨opened, hcaches⟩
          · rw [hop] at htouch
            cases htouch
          · exact hnone url opened hcaches.2
        rw [show t = s from hsame] at hl
        exact ih hl (latest_other hx hy)
      · have hafter : t.sessions = s.sessions.insert v opened := by rw [show t = _ from ht]
        by_cases hv : url = v
        · subst hv
          have hheld : t.sessions.lookup url = some opened := by rw [hafter, AList.lookup_insert]
          cases hl.symm.trans hheld
          exact lastUsed_opened hop hcaches hshaken hheld hx
        · rw [hafter, AList.lookup_insert_ne hv] at hl
          exact ih hl (latest_other hx (not_uses hop (by simp) (by simp [Ne.symm hv])))
      · have hafter : t.sessions = touched s.sessions v now := by rw [show t = _ from ht]
        by_cases hv : url = v
        · subst hv
          exact lastUsed_touched hop hl hx
        · rw [hafter, lookup_touched, if_neg hv] at hl
          exact ih hl (latest_other hx (not_uses hop (by simp [Ne.symm hv]) (by simp)))
      · have hafter : t.sessions = s.sessions.erase v := by rw [show t = _ from ht]
        by_cases hv : url = v
        · subst hv
          rw [hafter, AList.lookup_erase] at hl
          cases hl
        · rw [hafter, AList.lookup_erase_ne hv] at hl
          exact ih hl (latest_other hx (not_uses hop (by simp) (by simp)))
      · rw [show t.sessions.lookup url = none from hnone url] at hl
        cases hl

/-- A handshake begins with a message. -/
theorem establishAndCache_sends
    (h : Run ClientCall.Meaning Quiet (establishAndCache hmac config url) s tr t' r) :
    ∃ message a, ⟨.sendMessage url message, a⟩ ∈ tr := by
  unfold establishAndCache establishSession newEnvelope sendSigned newV4 utcNowRfc3339
    SessionManager.sendMessage at h
  simp only [call_bind, pure_eq, ask_bind, pure_bind_eq, quiet_ask] at h
  obtain ⟨_, _, _, _, ⟨_, _, _, _, ⟨a, _, _, _, _, htr₃⟩, htr₂⟩, htr₁⟩ := h
  refine ⟨_, a, ?_⟩
  rw [htr₁, htr₂, htr₃]
  exact List.mem_cons_of_mem _ (List.mem_cons_of_mem _ List.mem_cons_self)

/-- What the code compares: the seconds since the last use, and the time to live as a
signed integer. -/
theorem reused_iff_cast (h : AskedAt hmac config url t₀ t session tr r) :
    Reused session tr r ↔ secondsSince t t₀ < asI64 config.session.ttlSecs := by
  obtain ⟨log, s, x, u, hoperates, hl, hlatest, hrun, htime⟩ := h
  have hlast := lastUsed_of_latest hoperates hl hlatest
  obtain ⟨_, hactive, httl, _⟩ := (cache_history hmac config log s hoperates).1 url session hl
  unfold getOrEstablish getSession at hrun
  simp only [call_bind, quiet_ask] at hrun
  obtain ⟨cached, _, tr₁, ⟨hcached, rfl⟩, hrest, htr⟩ := hrun
  rw [hcached, hl] at hrest
  unfold isActive utcNow at hrest
  simp only [hactive, if_true, call_bind, pure_eq, ask_bind, pure_bind_eq, quiet_ask] at hrest
  obtain ⟨reading, t₁, tr₂, _, hrest, htr₁⟩ := hrest
  have hreading : reading = t := by
    rw [htr, htr₁] at htime
    cases htime
    rfl
  subst hreading
  rw [← hlast, ← httl]
  by_cases hlive : secondsSince reading session.lastUsed < asI64 session.ttlSecs
  · simp only [hlive, decide_true, if_true, quiet_pure] at hrest
    obtain ⟨_, hnil, hr⟩ := hrest
    refine ⟨fun _ => hlive, fun _ => ⟨hr, ?_⟩⟩
    intro v message a hmem
    rw [htr, htr₁, hnil] at hmem
    simp at hmem
  · simp only [hlive, decide_false, Bool.false_eq_true, if_false] at hrest
    obtain ⟨message, a, hsent⟩ := establishAndCache_sends hrest
    refine ⟨?_, fun hlt => (hlive hlt).elim⟩
    intro hreused
    refine (hreused.2 url message a ?_).elim
    rw [htr, htr₁]
    exact List.mem_cons_of_mem _ (List.mem_cons_of_mem _ hsent)

theorem secondsSince_eq (hle : t₀ ≤ t) : secondsSince t t₀ = elapsed t₀ t := by
  unfold secondsSince elapsed
  exact Int.tdiv_eq_ediv_of_nonneg (by omega)

/-- A time to live from `2 ^ 63` on is below any number of seconds. -/
theorem lt_asI64 {seconds : ℤ} (hseconds : 0 ≤ seconds) (ttl : UInt64) :
    seconds < asI64 ttl ↔ seconds < ttl.toNat ∧ ttl.toNat < 2 ^ 63 := by
  have hbound := ttl.toNat_lt
  unfold asI64
  split <;> omega

theorem reused_iff (hle : t₀ ≤ t) (h : AskedAt hmac config url t₀ t session tr r) :
    Reused session tr r ↔
      elapsed t₀ t < config.session.ttlSecs.toNat ∧ config.session.ttlSecs.toNat < 2 ^ 63 := by
  have hseconds : 0 ≤ elapsed t₀ t := Int.ediv_nonneg (by omega) (by omega)
  rw [reused_iff_cast h, secondsSince_eq hle, lt_asI64 hseconds]

end

/-- A session last used at `t₀` is reused at `t` exactly while fewer whole seconds than
its time to live have passed, unless that is `2 ^ 63` or more and has not passed. A
longer time to live makes no session expire earlier, and a new session is active,
under the same condition. -/
theorem ttl_iff (config : LdpAdapterConfig) (t₀ t : ℤ) (hle : t₀ ≤ t) :
    (∀ hmac url session tr r, AskedAt hmac config url t₀ t session tr r →
      ((Reused session tr r ↔ elapsed t₀ t < config.session.ttlSecs.toNat) ↔
        config.session.ttlSecs.toNat < 2 ^ 63 ∨
          (config.session.ttlSecs.toNat : ℤ) ≤ elapsed t₀ t)) ∧
    (∀ config' : LdpAdapterConfig, config.session.ttlSecs ≤ config'.session.ttlSecs →
      ∀ hmac url session tr r hmac' url' session' tr' r',
      AskedAt hmac config url t₀ t session tr r → AskedAt hmac' config' url' t₀ t session' tr' r' →
      ((Reused session tr r → Reused session' tr' r') ↔
        config'.session.ttlSecs.toNat < 2 ^ 63 ∨ 2 ^ 63 ≤ config.session.ttlSecs.toNat ∨
          (config.session.ttlSecs.toNat : ℤ) ≤ elapsed t₀ t)) ∧
    (1 ≤ config.session.ttlSecs → t = t₀ → ∀ hmac url session tr r,
      AskedAt hmac config url t₀ t session tr r →
      (Reused session tr r ↔ config.session.ttlSecs.toNat < 2 ^ 63)) := by
  refine ⟨?_, ?_, ?_⟩
  · intro hmac url session tr r h
    rw [reused_iff hle h]
    omega
  · intro config' hlonger hmac url session tr r hmac' url' session' tr' r' h h'
    have hnat := UInt64.le_iff_toNat_le.mp hlonger
    rw [reused_iff hle h, reused_iff hle h']
    omega
  · intro hone htime hmac url session tr r h
    have hnat : 1 ≤ config.session.ttlSecs.toNat := UInt64.le_iff_toNat_le.mp hone
    have hzero : elapsed t₀ t = 0 := by
      rw [htime]
      simp [elapsed]
    rw [reused_iff hle h, hzero]
    omega

/-- A first handshake under a time to live, and the same call again. -/
def ttlConfig (ttlSecs : UInt64) : LdpAdapterConfig := { session := { ttlSecs } }

def establishing (ttlSecs : UInt64) : Step :=
  let out := Program.exec ClientSigning.accepting
    (Operation.program submissionMac (ttlConfig ttlSecs) (.getOrEstablish "u")) ClientState.empty
  ⟨.getOrEstablish "u", out.1, .empty, out.2.1, out.2.2⟩

def again (ttlSecs : UInt64) : Trace × ClientState × Except String LdpSession :=
  Program.exec ClientSigning.accepting
    (getOrEstablish submissionMac (ttlConfig ttlSecs) "u") (establishing ttlSecs).after

def newSession (ttlSecs : UInt64) : LdpSession :=
  establishedSession (ttlConfig ttlSecs) "u" "9f1c1f0e-6f7e-4a0b-9a55-0d6a3b1c2d4e" "ldp:b"
    ⟨.text, []⟩ 0

theorem again_asked (ttlSecs : UInt64) : AskedAt submissionMac (ttlConfig ttlSecs) "u" 0 0
    (newSession ttlSecs) (again ttlSecs).1 (again ttlSecs).2.2 := by
  refine ⟨[establishing ttlSecs], (establishing ttlSecs).after, establishing ttlSecs,
    (again ttlSecs).2.1, ?_, rfl, ?_, ?_, rfl⟩
  · exact .operate .start (exec_run ClientSigning.accepting ClientSigning.accepting_meaning _ _)
  · refine ⟨[], [], rfl, .inr ⟨newSession ttlSecs, ⟨rfl, ?_⟩, rfl, rfl⟩, by simp⟩
    have hlast : (establishing ttlSecs).trace[9]? =
        some ⟨.insertSession "u" (newSession ttlSecs), ()⟩ := rfl
    exact List.mem_of_getElem? hlast
  · exact exec_run ClientSigning.accepting ClientSigning.accepting_meaning _ _

/-- A session of an hour is reused at once. -/
theorem ttl_iff_hour : Reused (newSession 3600) (again 3600).1 (again 3600).2.2 :=
  ((ttl_iff (ttlConfig 3600) 0 0 le_rfl).2.2 (by decide) rfl _ _ _ _ _ (again_asked 3600)).mpr
    (by decide)

/-- One that never ends is not. -/
theorem endless_session_expires : ¬ ∀ (config : LdpAdapterConfig) (t₀ t : ℤ) hmac url session tr r,
    1 ≤ config.session.ttlSecs → t₀ ≤ t → AskedAt hmac config url t₀ t session tr r →
    (Reused session tr r ↔ elapsed t₀ t < config.session.ttlSecs.toNat) := by
  intro h
  have hasked := again_asked 18446744073709551615
  have hreused := (h _ 0 0 _ _ _ _ _ (by decide) le_rfl hasked).mpr (by decide)
  have hbound := ((reused_iff le_rfl hasked).mp hreused).2
  exact absurd hbound (by decide)

end LdpProtocol.SessionExpiry
