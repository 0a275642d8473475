import LdpProtocol.SessionCustody
import LdpProtocol.Whereabouts

/-!
# Sessions that nobody can close any more

Any number of calls in any order, from an empty cache and a server without
sessions. An id that was proposed is at one place at a time: with a call that opens
or closes it, in the cache, or lost.
-/
namespace LdpProtocol.OrphanedSessions
open InteractivePrograms InterferedRuns ConcurrentCalls MonitoredCalls Whereabouts
open PayloadModes MessageTypes EnvelopeSigning SessionManager ServerHandlers
open LinkedServer LinkedSessionManager SessionCustody
open SessionCache (Operation)

abbrev CallConfig := Config Operation ClientCall ClientCall.Answer String Unit State

/-- The configurations that calls lead to, from an empty cache and no sessions. -/
abbrev Reached (hmac : Hmac) (srv : LdpServer) (config : LdpAdapterConfig) (k : CallConfig) :
    Prop :=
  Moves (Meaning hmac srv) (Operation.program hmac config) (idle ⟨.empty, .empty, []⟩) k

/-- No call is in progress. -/
def Quiescent (k : CallConfig) : Prop := ∀ call ∈ k.calls, ∃ r, call.2 = done r

/-- The server holds the client's cached sessions and no others for it. -/
def Matched (config : LdpAdapterConfig) (w : State) : Prop :=
  ∀ id, (∃ held, w.peer.sessions.lookup id = some held ∧
      held.remoteDelegateId = config.delegateId) ↔
    ∃ url session, w.client.sessions.lookup url = some session ∧ session.sessionId = id

/-! ## Where a session is -/

inductive Place where
  | unused (caller : ℕ)
  | carried (caller : ℕ)
  | cached (url : String)
  | lost

/-- A session in this place is open on the server. -/
def Opened : Place → Prop
  | .unused _ => False
  | _ => True

/-- The URL a question caches a session under. -/
def cachedUrl : ClientCall → Option String
  | .insertSession url _ => some url
  | _ => none

/-- The step put another session over this one. -/
def Overwrites (x : Entry ClientCall ClientCall.Answer State) (id : String) : Prop :=
  ∃ url session old, x.event = ⟨.insertSession url session, ()⟩ ∧
    x.before.client.sessions.lookup url = some old ∧ old.sessionId = id

def Seen (log : List (Entry ClientCall ClientCall.Answer State)) (w : State)
    (hands : ℕ → Hands) : Place → String → Prop
  | .unused i, id => id ∈ (hands i).unused
  | .carried i, id => (hands i).carried = some id
  | .cached url, id => ∃ session, w.client.sessions.lookup url = some session ∧
      session.sessionId = id
  | .lost, id => ∃ x ∈ log, Overwrites x id

/-- Every session of the client's on the server is in one place. -/
structure Accounted (config : LdpAdapterConfig)
    (log : List (Entry ClientCall ClientCall.Answer State)) (w : State) (hands : ℕ → Hands) :
    Prop where
  placed : Placed Opened (Seen log w hands) (fun id => (w.peer.sessions.lookup id).isSome = true)
    (· ∈ w.drawn)
  sender : ∀ id session, w.peer.sessions.lookup id = some session →
    session.remoteDelegateId = config.delegateId

section Steps
variable {hmac : Hmac} {srv : LdpServer} {config : LdpAdapterConfig}
  {log : List (Entry ClientCall ClientCall.Answer State)} {w w' : State} {hands : ℕ → Hands}
  {i : ℕ} {x : Entry ClientCall ClientCall.Answer State} {h' : Hands} {id : String}

/-- What a step does not touch is seen as before. -/
theorem seen_other {p : Place}
    (hunused : p = .unused i → (id ∈ h'.unused ↔ id ∈ (hands i).unused))
    (hcarried : p = .carried i → (h'.carried = some id ↔ (hands i).carried = some id))
    (hcached : ∀ url, p = .cached url →
      (Seen log w' hands (.cached url) id ↔ Seen log w hands (.cached url) id))
    (hlost : p = .lost → ¬ Overwrites x id) :
    Seen (log ++ [x]) w' (Function.update hands i h') p id ↔ Seen log w hands p id := by
  cases p with
  | unused j =>
      by_cases hj : j = i
      · subst hj
        simpa [Seen] using hunused rfl
      · simp [Seen, Function.update_of_ne hj]
  | carried j =>
      by_cases hj : j = i
      · subst hj
        simpa [Seen] using hcarried rfl
      · simp [Seen, Function.update_of_ne hj]
  | cached url => exact hcached url rfl
  | lost =>
      have hx := hlost rfl
      simp only [Seen, List.mem_append, List.mem_singleton]
      constructor
      · intro hin
        obtain ⟨y, hy | hy, hover⟩ := hin
        · exact ⟨y, hy, hover⟩
        · rw [hy] at hover
          exact (hx hover).elim
      · intro hin
        obtain ⟨y, hy, hover⟩ := hin
        exact ⟨y, .inl hy, hover⟩

theorem not_overwrites (hx : cachedUrl x.event.1 = none) : ¬ Overwrites x id := by
  intro hover
  obtain ⟨url, session, old, hev, _⟩ := hover
  rw [hev] at hx
  cases hx

theorem overwrites_insert {url : String} {session old : LdpSession}
    (hl : w.client.sessions.lookup url = some old) :
    Overwrites ⟨i, w, ⟨.insertSession url session, ()⟩⟩ id ↔ id = old.sessionId := by
  constructor
  · intro hover
    obtain ⟨_, _, _, hev, hold, hid⟩ := hover
    cases hev
    rw [hl] at hold
    cases hold
    exact hid.symm
  · intro hid
    exact ⟨url, session, old, rfl, hl, hid.symm⟩

/-- A step that moves no session anywhere. -/
theorem accounted_unmoved (h : Accounted config log w hands)
    (hcached : ∀ url id, Seen log w' hands (.cached url) id ↔ Seen log w hands (.cached url) id)
    (hpeer : w'.peer.sessions = w.peer.sessions) (hdrawn : w'.drawn = w.drawn)
    (hx : cachedUrl x.event.1 = none) (hh : h' = hands i) :
    Accounted config (log ++ [x]) w' (Function.update hands i h') := by
  subst hh
  constructor
  · rw [hpeer, hdrawn]
    refine h.placed.congr ?_ (fun _ => Iff.rfl) (fun _ => id)
    intro p id
    exact seen_other (fun _ => Iff.rfl) (fun _ => Iff.rfl) (fun url _ => hcached url id)
      (fun _ => not_overwrites hx)
  · rw [hpeer]
    exact h.sender

/-- A call draws a new id. -/
theorem accounted_draw (h : Accounted config log w hands) {new : String} (hnew : new ∉ w.drawn)
    (hx : cachedUrl x.event.1 = none) :
    Accounted config (log ++ [x]) { w with drawn := new :: w.drawn }
      (Function.update hands i { hands i with unused := new :: (hands i).unused }) := by
  constructor
  · refine h.placed.arrive (.unused i) hnew id ?_ (fun _ => Iff.rfl) ?_
    · intro p y
      by_cases hp : p = .unused i
      · subst hp
        simp [Seen, or_comm]
      · have hsame : Seen (log ++ [x]) { w with drawn := new :: w.drawn }
            (Function.update hands i { hands i with unused := new :: (hands i).unused }) p y ↔
            Seen log w hands p y :=
          seen_other (fun hu => (hp hu).elim) (fun _ => Iff.rfl) (fun _ _ => Iff.rfl)
            (fun _ => not_overwrites hx)
        rw [hsame]
        simp [hp]
    · intro y
      simp [or_comm]
  · exact h.sender

/-- A proposal is accepted: the session is in the hands of its call. -/
theorem accounted_accept (h : Accounted config log w hands) {opened : LdpSession} {p : ServerState}
    (hunused : id ∈ (hands i).unused) (hempty : (hands i).carried = none)
    (hpeer : p.sessions = w.peer.sessions.insert id opened)
    (hsender : opened.remoteDelegateId = config.delegateId) (hx : cachedUrl x.event.1 = none) :
    Accounted config (log ++ [x]) { w with peer := p } (Function.update hands i
      ⟨(hands i).unused.filter (· ≠ id), some id⟩) := by
  have hseen : Seen log w hands (.unused i) id := hunused
  constructor
  · refine h.placed.relocate (.carried i) hseen (by simp) ?_ ?_ ?_ ?_
    · intro y
      simp [Seen]
    · intro y
      simp [Seen, hempty, eq_comm]
    · intro q hq₀ hq₁ y
      apply seen_other
      · exact fun hu => (hq₀ hu).elim
      · exact fun hc => (hq₁ hc).elim
      · exact fun _ _ => Iff.rfl
      · exact fun _ => not_overwrites hx
    · intro y
      dsimp only
      rw [hpeer]
      by_cases hy : y = id
      · subst hy
        simp [Opened]
      · simp [hy, AList.lookup_insert_ne hy]
  · intro y session hl
    dsimp only at hl
    rw [hpeer] at hl
    by_cases hy : y = id
    · subst hy
      rw [AList.lookup_insert] at hl
      cases hl
      exact hsender
    · rw [AList.lookup_insert_ne hy] at hl
      exact h.sender y session hl

/-- A proposal is turned down: its id is not used any more. -/
theorem accounted_refuse (h : Accounted config log w hands) (hunused : id ∈ (hands i).unused)
    (hempty : (hands i).carried = none)
    (hx : cachedUrl x.event.1 = none) :
    Accounted config (log ++ [x]) w (Function.update hands i
      ⟨(hands i).unused.filter (· ≠ id), none⟩) := by
  have hseen : Seen log w hands (.unused i) id := hunused
  have hnot := h.placed.not_held hseen not_false
  constructor
  · refine h.placed.leave hseen ?_ ?_ ?_
    · intro y
      simp [Seen]
    · intro q hq y
      apply seen_other
      · exact fun hu => (hq hu).elim
      · exact fun _ => by simp [hempty]
      · exact fun _ _ => Iff.rfl
      · exact fun _ => not_overwrites hx
    · intro y
      constructor
      · intro hheld
        refine ⟨hheld, ?_⟩
        intro hy
        rw [hy] at hheld
        exact hnot hheld
      · exact And.left
  · exact h.sender

/-- A close is handled: the session is nowhere any more. -/
theorem accounted_close (h : Accounted config log w hands) {p : ServerState}
    (hcarried : (hands i).carried = some id) (hpeer : p.sessions = w.peer.sessions.erase id)
    (hx : cachedUrl x.event.1 = none) :
    Accounted config (log ++ [x]) { w with peer := p } (Function.update hands i
      { hands i with carried := none }) := by
  have hseen : Seen log w hands (.carried i) id := hcarried
  constructor
  · refine h.placed.leave hseen ?_ ?_ ?_
    · intro y
      simp [Seen, hcarried, eq_comm]
    · intro q hq y
      apply seen_other
      · exact fun _ => Iff.rfl
      · exact fun hc => (hq hc).elim
      · exact fun _ _ => Iff.rfl
      · exact fun _ => not_overwrites hx
    · intro y
      dsimp only
      rw [hpeer]
      by_cases hy : y = id
      · subst hy
        simp
      · simp [hy, AList.lookup_erase_ne hy]
  · intro y session hl
    dsimp only at hl
    rw [hpeer] at hl
    by_cases hy : y = id
    · subst hy
      simp at hl
    · rw [AList.lookup_erase_ne hy] at hl
      exact h.sender y session hl

theorem seen_cached_ne {sessions : AList fun _ : String => LdpSession} {v : String}
    (hl : sessions.lookup v = w.client.sessions.lookup v) :
    Seen log { w with client := { w.client with sessions := sessions } } hands (.cached v) id ↔
      Seen log w hands (.cached v) id := by
  simp only [Seen, hl]

/-- A session is taken out of the cache, to be closed. -/
theorem accounted_remove (h : Accounted config log w hands) {url : String} {session : LdpSession}
    (hempty : (hands i).carried = none) (hl : w.client.sessions.lookup url = some session)
    (hx : cachedUrl x.event.1 = none) :
    Accounted config (log ++ [x])
      { w with client := { w.client with sessions := w.client.sessions.erase url } }
      (Function.update hands i { hands i with carried := some session.sessionId }) := by
  have hseen : Seen log w hands (.cached url) session.sessionId := ⟨session, hl, rfl⟩
  constructor
  · refine h.placed.relocate_held (.carried i) hseen (by simp) ?_ ?_ ?_ trivial trivial
    · intro y
      simp only [Seen, AList.lookup_erase, hl]
      grind
    · intro y
      simp [Seen, hempty, eq_comm]
    · intro q hq₀ hq₁ y
      apply seen_other
      · exact fun _ => Iff.rfl
      · exact fun hc => (hq₁ hc).elim
      · intro v hv
        apply seen_cached_ne
        apply AList.lookup_erase_ne
        rintro rfl
        exact hq₀ hv
      · exact fun _ => not_overwrites hx
  · exact h.sender

/-- What is seen once the entry of a URL counts as lost. -/
def Displaced (log : List (Entry ClientCall ClientCall.Answer State)) (w : State)
    (hands : ℕ → Hands) (url old : String) : Place → String → Prop
  | .cached v, id => v ≠ url ∧ Seen log w hands (.cached v) id
  | .lost, id => Seen log w hands .lost id ∨ id = old
  | p, id => Seen log w hands p id

/-- With nothing cached under the URL the carried session is cached there. -/
theorem accounted_insert_vacant (h : Accounted config log w hands) {url : String}
    {session : LdpSession} (hl : w.client.sessions.lookup url = none)
    (hcarried : (hands i).carried = some session.sessionId) :
    Accounted config (log ++ [⟨i, w, ⟨.insertSession url session, ()⟩⟩])
      { w with client := { w.client with sessions := w.client.sessions.insert url session } }
      (Function.update hands i { hands i with carried := none }) := by
  have hseen : Seen log w hands (.carried i) session.sessionId := hcarried
  refine ⟨?_, h.sender⟩
  refine h.placed.relocate_held (.cached url) hseen (by simp) ?_ ?_ ?_ trivial trivial
  · intro y
    simp [Seen, hcarried, eq_comm]
  · intro y
    simp [Seen, hl, eq_comm]
  · intro q hq₀ hq₁ y
    apply seen_other
    · exact fun _ => Iff.rfl
    · exact fun hc => (hq₀ hc).elim
    · intro v hv
      apply seen_cached_ne
      apply AList.lookup_insert_ne
      rintro rfl
      exact hq₁ hv
    · intro _ hover
      obtain ⟨_, _, old, hev, hold, _⟩ := hover
      cases hev
      rw [hl] at hold
      cases hold

/-- Losing the session cached under the URL leaves every session in one place. -/
theorem placed_displaced (h : Accounted config log w hands) {url : String} {old : LdpSession}
    (hl : w.client.sessions.lookup url = some old) :
    Placed Opened (Displaced log w hands url old.sessionId)
      (fun id => (w.peer.sessions.lookup id).isSome = true) (· ∈ w.drawn) := by
  have hover : Seen log w hands (.cached url) old.sessionId := ⟨old, hl, rfl⟩
  refine h.placed.relocate_held .lost hover (by simp) ?_ ?_ ?_ trivial trivial
  · intro y
    simp [Displaced, Seen, hl, eq_comm]
  · intro y
    rfl
  · intro q hq₀ hq₁ y
    cases q with
    | cached v =>
        have hv : v ≠ url := by
          rintro rfl
          exact hq₀ rfl
        simp [Displaced, hv]
    | lost => exact (hq₁ rfl).elim
    | _ => rfl

/-- With a session cached under the URL, that one is lost first, then the carried one takes
its place. -/
theorem accounted_insert_occupied (h : Accounted config log w hands) {url : String}
    {session old : LdpSession} (hl : w.client.sessions.lookup url = some old)
    (hcarried : (hands i).carried = some session.sessionId) :
    Accounted config (log ++ [⟨i, w, ⟨.insertSession url session, ()⟩⟩])
      { w with client := { w.client with sessions := w.client.sessions.insert url session } }
      (Function.update hands i { hands i with carried := none }) := by
  have hheld : Displaced log w hands url old.sessionId (.carried i) session.sessionId :=
    hcarried
  refine ⟨?_, h.sender⟩
  refine (placed_displaced h hl).relocate_held (.cached url) hheld (by simp) ?_ ?_ ?_
    trivial trivial
  · intro y
    simp [Seen, Displaced, hcarried, eq_comm]
  · intro y
    simp [Seen, Displaced, eq_comm]
  · intro q hq₀ hq₁ y
    cases q with
    | unused j =>
        by_cases hj : j = i
        · subst hj
          simp [Seen, Displaced]
        · simp [Seen, Displaced, Function.update_of_ne hj]
    | carried j =>
        have hj : j ≠ i := by
          rintro rfl
          exact hq₀ rfl
        simp [Seen, Displaced, Function.update_of_ne hj]
    | cached v =>
        have hv : v ≠ url := by
          rintro rfl
          exact hq₁ rfl
        simp [Seen, Displaced, hv, AList.lookup_insert_ne hv]
    | lost =>
        simp only [Seen, Displaced, List.mem_append, List.mem_singleton, or_and_right,
          exists_or, exists_eq_left, overwrites_insert hl]

theorem accounted_insert (h : Accounted config log w hands) {url : String} {session : LdpSession}
    (hcarried : (hands i).carried = some session.sessionId) :
    Accounted config (log ++ [⟨i, w, ⟨.insertSession url session, ()⟩⟩])
      { w with client := { w.client with sessions := w.client.sessions.insert url session } }
      (Function.update hands i { hands i with carried := none }) := by
  cases hl : w.client.sessions.lookup url with
  | none => exact accounted_insert_vacant h hl hcarried
  | some old => exact accounted_insert_occupied h hl hcarried

/-- What a question of a call does is one of these moves. -/
theorem accounted_step (hsrv : srv.signingSecret = none)
    (log : List (Entry ClientCall ClientCall.Answer State)) (w : State) (hands : ℕ → Hands)
    (i : ℕ) (q : ClientCall) (a : q.Answer) (w' : State) (h : Accounted config log w hands)
    (hm : Meaning hmac srv q w a w') (hallowed : (custody config).allows (hands i) ⟨q, a⟩) :
    Accounted config (log ++ [⟨i, w, ⟨q, a⟩⟩]) w'
      (Function.update hands i ((custody config).after (hands i) ⟨q, a⟩)) := by
  cases q with
  | newV4 =>
      obtain ⟨hnew, rfl⟩ := hm
      exact accounted_draw h hnew rfl
  | sendMessage url e =>
      obtain ⟨p, hexchanged, rfl⟩ := hm
      cases hbody : e.body with
      | hello delegateId modes =>
          have hp := hello_exchanged hsrv hbody hexchanged
          rw [hp]
          apply accounted_unmoved h (fun _ _ => Iff.rfl) rfl rfl rfl
          simp only [custody, hbody]
      | sessionPropose proposed =>
          simp only [custody, hbody] at hallowed
          obtain ⟨hfrom, hunused, hempty⟩ := hallowed
          simp only [custody, hbody]
          rcases propose_exchanged hsrv hbody hexchanged with
            ⟨back, mode, now, rfl, haccept, hp⟩ | ⟨hrefused, rfl⟩
          · have haccepted : accepted (.ok back) = true := by simp [accepted, haccept]
            rw [haccepted]
            exact accounted_accept h hunused hempty hp hfrom rfl
          · rw [hrefused]
            exact accounted_refuse h hunused hempty rfl
      | sessionClose reason =>
          simp only [custody, hbody] at hallowed
          simp only [custody, hbody]
          exact accounted_close h hallowed (close_exchanged hsrv hbody hexchanged) rfl
      | _ =>
          simp only [custody, hbody] at hallowed
  | insertSession url session =>
      obtain ⟨c, hc, rfl⟩ := hm
      cases hc
      exact accounted_insert h hallowed
  | removeSession url =>
      obtain ⟨c, ⟨ha, rfl⟩, rfl⟩ := hm
      cases a with
      | none =>
          refine accounted_unmoved h ?_ rfl rfl rfl rfl
          intro v id
          apply seen_cached_ne
          by_cases hv : v = url
          · rw [hv, AList.lookup_erase, ← ha]
          · exact AList.lookup_erase_ne hv
      | some session => exact accounted_remove h hallowed ha.symm rfl
  | touchSession url =>
      obtain ⟨c, ⟨now, rfl⟩, rfl⟩ := hm
      refine accounted_unmoved h ?_ rfl rfl rfl rfl
      intro v id
      simp only [Seen, SessionCache.lookup_touched]
      by_cases hv : v = url
      · rw [if_pos hv, hv]
        cases w.client.sessions.lookup url with
        | none => simp
        | some session => simp [SessionCache.used]
      · rw [if_neg hv]
  | getSession | sessionUrls | getContract =>
      obtain ⟨c, ⟨_, rfl⟩, rfl⟩ := hm
      exact accounted_unmoved h (fun _ _ => Iff.rfl) rfl rfl rfl rfl
  | _ =>
      obtain ⟨c, rfl, rfl⟩ := hm
      exact accounted_unmoved h (fun _ _ => Iff.rfl) rfl rfl rfl rfl

theorem accounted_start : Accounted config [] ⟨.empty, .empty, []⟩ fun _ => {} := by
  constructor
  · constructor
    · intro p q id hp _
      cases p <;> simp [Seen, ClientState.empty] at hp
    · intro id
      constructor
      · intro hheld
        simp [ServerState.empty] at hheld
      · intro hopened
        obtain ⟨p, hcounts, hseen⟩ := hopened
        cases p with
        | unused i => exact hcounts.elim
        | _ => simp [Seen, ClientState.empty] at hseen
    · intro p id hp
      cases p <;> simp [Seen, ClientState.empty] at hp
  · intro id session hl
    simp [ServerState.empty] at hl

theorem Accounted.matched_iff (h : Accounted config log w hands)
    (hempty : ∀ i, (hands i).carried = none) :
    Matched config w ↔ ∀ x ∈ log, ∀ id, ¬ Overwrites x id := by
  constructor
  · intro hmatched x hx id hover
    have hlost : Seen log w hands .lost id := ⟨x, hx, hover⟩
    obtain ⟨held, hheld⟩ := Option.isSome_iff_exists.mp
      ((h.placed.held id).mpr ⟨.lost, trivial, hlost⟩)
    obtain ⟨url, hcached⟩ := (hmatched id).mp ⟨held, hheld, h.sender id held hheld⟩
    have hsame : Place.lost = .cached url := h.placed.unique hlost hcached
    cases hsame
  · intro hnone id
    constructor
    · intro hserved
      obtain ⟨held, hheld, _⟩ := hserved
      obtain ⟨p, hcounts, hseen⟩ :=
        (h.placed.held id).mp (Option.isSome_iff_exists.mpr ⟨held, hheld⟩)
      cases p with
      | unused i => exact hcounts.elim
      | carried i =>
          have hcarried : (hands i).carried = some id := hseen
          rw [hempty i] at hcarried
          cases hcarried
      | cached url => exact ⟨url, hseen⟩
      | lost =>
          obtain ⟨x, hx, hover⟩ := hseen
          exact (hnone x hx id hover).elim
    · intro hcached
      obtain ⟨url, hseen⟩ := hcached
      obtain ⟨held, hheld⟩ := Option.isSome_iff_exists.mp
        ((h.placed.held id).mpr ⟨.cached url, trivial, hseen⟩)
      exact ⟨held, hheld, h.sender id held hheld⟩

end Steps

/-! ## Surroundings to call in -/

/-- Longer than every id that was drawn. -/
def unseen (drawn : List String) : String :=
  String.ofList (List.replicate ((drawn.map String.length).sum + 1) 'x')

theorem unseen_not_mem (drawn : List String) : unseen drawn ∉ drawn := by
  intro hmem
  have hle := List.le_sum_of_mem (List.mem_map_of_mem (f := String.length) hmem)
  rw [unseen, String.length_ofList, List.length_replicate] at hle
  omega

def start : State := ⟨.empty, .empty, []⟩

/-- The client's surroundings with a server and with ids that are always new. -/
def surroundings (hmac : Hmac) (srv : LdpServer) : (q : ClientCall) → State → q.Answer × State
  | .newV4, w => (unseen w.drawn, { w with drawn := unseen w.drawn :: w.drawn })
  | q, w => networked (serve hmac srv) q w

theorem surroundings_meaning (hmac : Hmac) (srv : LdpServer) (q : ClientCall) (w : State) :
    Meaning hmac srv q w (surroundings hmac srv q w).1 (surroundings hmac srv q w).2 := by
  have hnetworked := networked_meaning (serve_serves hmac srv fun _ => Quiet) False q w
  cases q with
  | newV4 => exact ⟨unseen_not_mem w.drawn, rfl⟩
  | _ => exact hnetworked

/-- The server that the calls below meet. -/
abbrev echo : LdpServer := LdpServer.echoServer "ldp:b" "B"

def outcome {α : Type} (p : ClientProgram α) (w : State) :
    List (Event ClientCall ClientCall.Answer) × State × Except String α :=
  Program.exec (surroundings submissionMac echo) p w

theorem outcome_run {α : Type} (p : ClientProgram α) (w : State) :
    Run (Meaning submissionMac echo) Quiet p w (outcome p w).1 (outcome p w).2.1
      (outcome p w).2.2 :=
  exec_run _ (surroundings_meaning submissionMac echo) p w

theorem outcome_ok {α : Type} {p : ClientProgram α} {w : State} {a : α}
    (h : (outcome p w).2.2 = .ok a) :
    Run (Meaning submissionMac echo) Quiet p w (outcome p w).1 (outcome p w).2.1 (.ok a) := by
  rw [← h]
  exact outcome_run p w

/-- Whenever no call is in progress, the server has the client's cached sessions and
no others exactly if no session was ever cached over another. -/
theorem sessions_matched (hmac : Hmac) (srv : LdpServer) (hsrv : srv.signingSecret = none)
    (config : LdpAdapterConfig) (k : CallConfig) (h : Reached hmac srv config k)
    (hq : Quiescent k) :
    Matched config k.state ↔ ∀ x ∈ k.log, ∀ url session,
      x.event = ⟨.insertSession url session, ()⟩ → x.before.client.sessions.lookup url = none := by
  obtain ⟨hands, hG, hnone, hcalls⟩ := Moves.monitored (m := custody config)
    (G := Accounted config) (fun op => program_returns op {} rfl) (meaning_expects hsrv)
    accounted_start (fun log s hands i q a t hG hm hallowed =>
      accounted_step hsrv log s hands i q a t hG hm hallowed) h
  have hempty : ∀ i, (hands i).carried = none := ended_of_obeys hnone hcalls hq rfl
  rw [hG.matched_iff hempty]
  constructor
  · intro hover x hx url session hev
    cases hl : x.before.client.sessions.lookup url with
    | none => rfl
    | some old => exact (hover x hx old.sessionId ⟨url, session, old, hev, hl, rfl⟩).elim
  · intro hfree x hx id hover
    obtain ⟨url, session, old, hev, hl, _⟩ := hover
    rw [hfree x hx url session hev] at hl
    cases hl

/-! ## Two first calls at once -/

theorem not_matched {config : LdpAdapterConfig} {w : State} (id : String)
    (hserved : (w.peer.sessions.lookup id).map LdpSession.remoteDelegateId =
      some config.delegateId)
    (hcached : (w.client.sessions.entries.all fun e => e.2.sessionId != id) = true) :
    ¬ Matched config w := by
  intro hmatched
  obtain ⟨held, hheld, hsender⟩ := Option.map_eq_some_iff.mp hserved
  obtain ⟨url, session, hl, hid⟩ := (hmatched id).mp ⟨held, hheld, hsender⟩
  have hentry := AList.mem_lookup_iff.mp hl
  have hother := List.all_eq_true.mp hcached _ hentry
  rw [bne_iff_ne] at hother
  exact hother hid

/-- What a first call does once it has found the cache empty. -/
def opening : ClientProgram Unit := do
  let _ ← establishAndCache submissionMac Handshake.echoConfig "u"
  pure ()

/-- Both calls look before either has cached anything. -/
theorem opening_twice {u v : State} {tr₁ tr₂ : List (Event ClientCall ClientCall.Answer)}
    (h₁ : Run (Meaning submissionMac echo) Quiet opening start tr₁ u (.ok ()))
    (h₂ : Run (Meaning submissionMac echo) Quiet opening u tr₂ v (.ok ())) :
    ∃ k : CallConfig, Reached submissionMac echo Handshake.echoConfig k ∧
      k.calls = [(.getOrEstablish "u", done (.ok ())), (.getOrEstablish "u", done (.ok ()))] ∧
      k.state = v := by
  let call := Operation.getOrEstablish "u"
  have hbegun : Reached submissionMac echo Handshake.echoConfig _ :=
    Moves.startAll _ _ start [call, call]
  have hnone : Meaning submissionMac echo (.getSession "u") start none start :=
    ⟨_, ⟨rfl, rfl⟩, rfl⟩
  have hfirst : Reached submissionMac echo Handshake.echoConfig _ :=
    hbegun.tail (.act (i := 0) rfl hnone)
  have hlooked : Reached submissionMac echo Handshake.echoConfig _ :=
    hfirst.tail (.act (i := 1) rfl hnone)
  obtain ⟨log, hlog⟩ : ∃ log, Reached submissionMac echo Handshake.echoConfig
      ⟨log, start, [(call, opening), (call, opening)]⟩ := ⟨_, hlooked⟩
  obtain ⟨steps, hopened, _⟩ := Moves.finish (Operation.program submissionMac Handshake.echoConfig)
    (k := ⟨log, start, [(call, opening), (call, opening)]⟩) (i := 0) rfl h₁
  obtain ⟨_, hagain, _⟩ := Moves.finish (Operation.program submissionMac Handshake.echoConfig)
    (k := ⟨log ++ steps, u, [(call, done (.ok ())), (call, opening)]⟩) (i := 1) rfl h₂
  exact ⟨_, (hlog.trans hopened).trans hagain, rfl, rfl⟩

/-- Of two first calls at once, one caches its session over the other's. -/
theorem sessions_matched_twice : ∃ k : CallConfig,
    Reached submissionMac echo Handshake.echoConfig k ∧
    k.calls = [(.getOrEstablish "u", done (.ok ())), (.getOrEstablish "u", done (.ok ()))] ∧
    ∃ x ∈ k.log, ∃ url session, x.event = ⟨.insertSession url session, ()⟩ ∧
      x.before.client.sessions.lookup url ≠ none := by
  have hfirst := outcome_ok (p := opening) (w := start) (a := ()) rfl
  have hsecond := outcome_ok (p := opening) (w := (outcome opening start).2.1) (a := ()) rfl
  obtain ⟨k, hreached, hcalls, hstate⟩ := opening_twice hfirst hsecond
  have hquiescent : Quiescent k := by
    intro call hcall
    rw [hcalls] at hcall
    refine ⟨.ok (), ?_⟩
    rcases List.mem_pair.mp hcall with rfl | rfl <;> rfl
  have hmatched := sessions_matched submissionMac echo rfl Handshake.echoConfig k hreached
    hquiescent
  refine ⟨k, hreached, hcalls, ?_⟩
  by_contra hfree
  push Not at hfree
  have hunmatched : ¬ Matched Handshake.echoConfig k.state := by
    rw [hstate]
    exact not_matched "xx" rfl rfl
  exact hunmatched (hmatched.mpr hfree)

/-- Two first calls find the cache empty; both open a session, and one of the two
stays open after all sessions are closed. -/
theorem first_calls_orphan : ∃ k₁ k₂ : CallConfig,
    Reached submissionMac echo Handshake.echoConfig k₁ ∧
    k₁.calls = [(.getOrEstablish "u", done (.ok ())), (.getOrEstablish "u", done (.ok ()))] ∧
    ¬ Matched Handshake.echoConfig k₁.state ∧
    Moves (Meaning submissionMac echo) (Operation.program submissionMac Handshake.echoConfig)
      k₁ k₂ ∧
    k₂.calls = k₁.calls ++ [(.closeAll, done (.ok ()))] ∧
    k₂.state.client.sessions.keys = [] ∧ ¬ Matched Handshake.echoConfig k₂.state := by
  have hfirst := outcome_ok (p := opening) (w := start) (a := ()) rfl
  have hsecond := outcome_ok (p := opening) (w := (outcome opening start).2.1) (a := ()) rfl
  obtain ⟨k, hreached, hcalls, hstate⟩ := opening_twice hfirst hsecond
  have hclosed := outcome_ok (p := Operation.program submissionMac Handshake.echoConfig .closeAll)
    (w := (outcome opening (outcome opening start).2.1).2.1) (a := ()) rfl
  rw [← hstate] at hclosed
  obtain ⟨_, hclosing, _⟩ := Moves.call (c := Operation.closeAll) k hclosed
  refine ⟨k, _, hreached, hcalls, ?_, hclosing, rfl, ?_, ?_⟩
  · rw [hstate]
    exact not_matched "xx" rfl rfl
  · rw [hstate]
    rfl
  · rw [hstate]
    exact not_matched "xx" rfl rfl

end LdpProtocol.OrphanedSessions
