import LdpProtocol.TaskHistory

/-!
# Messages that are delivered again

The network may deliver what it has captured any number of times, in any order
and after any delay. The server checks signatures but never asks the replay
guard, so a copy of an accepted message is a message like any other. A message
takes effect at most once in every order of events exactly when the list of what
is delivered does not repeat it.
-/
namespace LdpProtocol.RepeatedMessages
open InteractivePrograms InteractivePrograms.Program InterferedRuns ConcurrentCalls Relation
open JsonValues PayloadModes MessageTypes EnvelopeSigning ServerHandlers ServerRuns TaskHistory

/-- The envelopes that were delivered, in the order in which they came. -/
abbrev delivered (k : ServerConfig) : List LdpEnvelope := k.calls.map Prod.fst

/-- A message is identified by its id and nonce. -/
def SameMessage (e d : LdpEnvelope) : Prop := e.messageId = d.messageId ∧ e.nonce = d.nonce

def RunsHandler (x : ServerEntry) : Prop := ∃ skill input, x.event.1 = .handler skill input

def OpensSession (x : ServerEntry) : Prop :=
  ∃ sessionId session, x.event.1 = .insertSession sessionId session

/-- A session that is there is removed. -/
def EndsSession (x : ServerEntry) : Prop :=
  ∃ sessionId, x.event.1 = .removeSession sessionId ∧
    (x.before.sessions.lookup sessionId).isSome = true

/-- No two effects of one kind come from one message. -/
def Once (k : ServerConfig) (P : ServerEntry → Prop) : Prop :=
  k.log.Pairwise fun x y => P x → P y → ∀ e d, (delivered k)[x.caller]? = some e →
    (delivered k)[y.caller]? = some d → ¬ SameMessage e d

theorem once_iff {k : ServerConfig} {P : ServerEntry → Prop} :
    Once k P ↔ ∀ {x y : ServerEntry}, [x, y].Sublist k.log → P x → P y → ∀ e d,
      (delivered k)[x.caller]? = some e → (delivered k)[y.caller]? = some d →
      ¬ SameMessage e d :=
  List.pairwise_iff_forall_sublist

structure AtMostOnce (k : ServerConfig) : Prop where
  handled : Once k RunsHandler
  opened : Once k OpensSession
  ended : Once k EndsSession

section Kinds
variable (hmac : Hmac) (srv : LdpServer)

/-- An accepted TASK_SUBMIT. -/
def Submits (e : LdpEnvelope) : Prop := srv.signatureError hmac e = none ∧
  ∃ taskId skill input contract, e.body = .taskSubmit taskId skill input contract

/-- An accepted SESSION_PROPOSE from a trusted domain. -/
def Proposes (e : LdpEnvelope) : Prop := srv.signatureError hmac e = none ∧
  ∃ config, e.body = .sessionPropose config ∧
    srv.identity.trustDomain.trusts (LdpServer.remoteDomain config) = true

/-- An accepted SESSION_CLOSE. -/
def Closes (e : LdpEnvelope) : Prop := srv.signatureError hmac e = none ∧
  ∃ reason, e.body = .sessionClose reason

/-- No task and no proposal is delivered twice, and no close is unless there is at
most one proposal of what its copies close. -/
structure Unrepeated (envelopes : List LdpEnvelope) : Prop where
  submits : ∀ (i j : ℕ) e d, i ≠ j → envelopes[i]? = some e → envelopes[j]? = some d →
    Submits hmac srv e → Submits hmac srv d → ¬ SameMessage e d
  proposals : ∀ (i j : ℕ) e d, i ≠ j → envelopes[i]? = some e → envelopes[j]? = some d →
    Proposes hmac srv e → Proposes hmac srv d → ¬ SameMessage e d
  closes : ∀ (i j : ℕ) c d, i ≠ j → envelopes[i]? = some c → envelopes[j]? = some d →
    Closes hmac srv c → Closes hmac srv d → SameMessage c d →
    ∀ (m n : ℕ) p q, m ≠ n → envelopes[m]? = some p → envelopes[n]? = some q →
    Proposes hmac srv p → Proposes hmac srv q → p.sessionId = c.sessionId →
    q.sessionId ≠ d.sessionId

end Kinds

/-- The questions with an effect. -/
def Acts : ServerCall → Prop
  | .handler _ _ | .insertSession _ _ | .removeSession _ => True
  | _ => False

theorem not_acts_of_passive {q : ServerCall} (h : q.Passive) : ¬ Acts q := by
  cases q <;> first | exact h.elim | exact id

section Paths
variable {srv : LdpServer} {e : LdpEnvelope} {hmac : Hmac}

theorem neverActs_of_asksPassively {α : Type} {p : ServerProgram α}
    (h : ServerGate.AsksPassively p) : p.Uses (fun _ _ => True) fun q => ¬ Acts q :=
  h.mono fun _ => not_acts_of_passive

theorem respond_neverActs (srv : LdpServer) (e : LdpEnvelope) (body : LdpMessageBody)
    (payloadMode : PayloadMode) :
    (srv.respond e body payloadMode).Uses (fun _ _ => True) fun q => ¬ Acts q :=
  neverActs_of_asksPassively (ServerGate.respond_asksPassively ..)

theorem handleSessionPropose_actsOnce (srv : LdpServer) (e : LdpEnvelope) (config : Value) :
    AsksOnce Acts (srv.handleSessionPropose e config) := by
  unfold LdpServer.handleSessionPropose
  split
  · intro opened
    refine ⟨fun hact => hact.elim, ?_⟩
    intro _
    exact ⟨fun _ => respond_neverActs .., asksOnce_of_uses (respond_neverActs ..)⟩
  · exact asksOnce_of_uses (respond_neverActs ..)

theorem handleTaskSubmit_actsOnce (srv : LdpServer) (e : LdpEnvelope) (taskId skill : String)
    (input : Value) : AsksOnce Acts (srv.handleTaskSubmit e taskId skill input) := by
  unfold LdpServer.handleTaskSubmit
  intro output
  have hrest : (insertTask taskId (LdpServer.completedRecord taskId skill output) >>= fun _ =>
      srv.resultProvenance >>= fun provenance => getSession e.sessionId >>= fun session =>
        srv.respond e (.taskResult taskId output provenance)
          (LdpServer.sessionMode session)).Uses (fun _ _ => True) fun q => ¬ Acts q := by
    refine ⟨id, fun _ _ => ?_⟩
    apply (neverActs_of_asksPassively (ServerGate.resultProvenance_asksPassively srv)).bind
    intro provenance
    exact ⟨id, fun _ _ => respond_neverActs ..⟩
  exact ⟨fun _ => hrest, asksOnce_of_uses hrest⟩

/-- A message has one effect at most. -/
theorem dispatch_actsOnce (srv : LdpServer) (e : LdpEnvelope) :
    AsksOnce Acts (srv.dispatch e) := by
  unfold LdpServer.dispatch
  cases e.body with
  | hello => exact asksOnce_of_uses (respond_neverActs ..)
  | sessionPropose config => exact handleSessionPropose_actsOnce srv e config
  | taskSubmit taskId skill input => exact handleTaskSubmit_actsOnce srv e taskId skill input
  | taskUpdate =>
      exact asksOnce_of_uses
        (neverActs_of_asksPassively (ServerGate.handleTaskStatusQuery_asksPassively ..))
  | taskCancel =>
      intro _
      exact ⟨fun hact => hact.elim, asksOnce_of_uses (respond_neverActs ..)⟩
  | sessionClose =>
      intro _
      exact ⟨fun _ => respond_neverActs .., asksOnce_of_uses (respond_neverActs ..)⟩
  | _ => trivial

theorem handleMessage_actsOnce (hmac : Hmac) (srv : LdpServer) (e : LdpEnvelope) :
    AsksOnce Acts (srv.handleMessage hmac e) := by
  unfold LdpServer.handleMessage
  split
  · trivial
  · exact (dispatch_actsOnce srv e).bind_pure _

/-- Which messages have which effect. -/
def Accounts (hmac : Hmac) (srv : LdpServer) (e : LdpEnvelope) : ServerCall → Prop
  | .handler _ _ => Submits hmac srv e
  | .insertSession sessionId _ => Proposes hmac srv e ∧ sessionId = e.sessionId
  | .removeSession sessionId => Closes hmac srv e ∧ sessionId = e.sessionId
  | _ => True

theorem accounts_of_asks {q : ServerCall} (hsig : srv.signatureError hmac e = none)
    (h : ServerGate.Asks srv e q) : Accounts hmac srv e q := by
  cases q with
  | handler skill input =>
      obtain ⟨taskId, contract, hb⟩ := h
      exact ⟨hsig, taskId, skill, input, contract, hb⟩
  | insertSession id session => exact ⟨⟨hsig, h.2⟩, h.1⟩
  | removeSession id => exact ⟨⟨hsig, h.2⟩, h.1⟩
  | _ => trivial

theorem handleMessage_accounts (hmac : Hmac) (srv : LdpServer) (e : LdpEnvelope) :
    (srv.handleMessage hmac e).Uses (fun _ _ => True) (Accounts hmac srv e) :=
  (ServerGate.handleMessage_asks hmac srv e).mono fun _ hq => accounts_of_asks hq.1 hq.2

end Paths

/-- What a question makes of the session, if it writes it. -/
def sessionWritten (sessionId : String) : ServerCall → Option (Option LdpSession)
  | .insertSession id session => if id = sessionId then some (some session) else none
  | .removeSession id => if id = sessionId then some none else none
  | _ => none

theorem sessionWritten_eq_some {sessionId : String} {session : LdpSession} {q : ServerCall} :
    sessionWritten sessionId q = some (some session) ↔ q = .insertSession sessionId session := by
  cases q with
  | insertSession id inserted => by_cases hid : id = sessionId <;> simp [sessionWritten, hid]
  | removeSession id => by_cases hid : id = sessionId <;> simp [sessionWritten, hid]
  | _ => simp [sessionWritten]

theorem lookup_session_effect (sessionId : String) (q : ServerCall) (s : ServerState) :
    (q.effect s).sessions.lookup sessionId =
      (sessionWritten sessionId q).getD (s.sessions.lookup sessionId) := by
  cases q with
  | insertSession id session =>
      by_cases hid : id = sessionId
      · simp [ServerCall.effect, sessionWritten, hid]
      · simp [ServerCall.effect, sessionWritten, hid, AList.lookup_insert_ne (Ne.symm hid)]
  | removeSession id =>
      by_cases hid : id = sessionId
      · simp [ServerCall.effect, sessionWritten, hid]
      · simp [ServerCall.effect, sessionWritten, hid, AList.lookup_erase_ne (Ne.symm hid)]
  | _ => rfl

section Runs
variable {hmac : Hmac} {srv : LdpServer} {k : ServerConfig}

/-- Every entry comes from a delivery, which accounts for it. -/
theorem entry_accounts (h : Serving hmac srv k) {x : ServerEntry} (hx : x ∈ k.log) :
    ∃ e, (delivered k)[x.caller]? = some e ∧ Accounts hmac srv e x.event.1 := by
  have hfollows := h.follows
  obtain ⟨⟨e, p⟩, hcall⟩ : ∃ call, k.calls[x.caller]? = some call :=
    ⟨_, List.getElem?_eq_getElem (hfollows.caller x hx)⟩
  refine ⟨e, by rw [List.getElem?_map, hcall]; rfl, ?_⟩
  have hpath := hfollows.along _ _ _ hcall
  exact hpath.uses (handleMessage_accounts hmac srv e) x.event (mem_traceOf.mpr ⟨x, hx, rfl, rfl⟩)

/-- Two effects come from two deliveries. -/
theorem callers_ne (h : Serving hmac srv k) {x y : ServerEntry} (hsub : [x, y].Sublist k.log)
    (hx : Acts x.event.1) (hy : Acts y.event.1) : x.caller ≠ y.caller := by
  have hfollows := h.follows
  have hcalls : ∀ i, (traceOf i k.log).Pairwise fun a b => ¬ (Acts a.1 ∧ Acts b.1) := by
    intro i
    cases hcall : k.calls[i]? with
    | some call =>
        obtain ⟨e, p⟩ := call
        exact (hfollows.along i e p hcall).once (handleMessage_actsOnce hmac srv e)
    | none =>
        have hnone : traceOf i k.log = [] := by
          rw [List.eq_nil_iff_forall_not_mem]
          intro ev hev
          obtain ⟨z, hz, hcaller, _⟩ := mem_traceOf.mp hev
          have hlt := hfollows.caller z hz
          rw [hcaller] at hlt
          have hle := List.getElem?_eq_none_iff.mp hcall
          omega
        rw [hnone]
        exact .nil
  have hpair := List.pairwise_iff_forall_sublist.mp (pairwise_of_traceOf hcalls) hsub
  exact fun hcaller => hpair hcaller ⟨hx, hy⟩

/-- A session that is there was inserted, and neither removed nor replaced since. -/
theorem inserted_of_lookup (h : Serving hmac srv k) {sessionId : String} {session : LdpSession}
    (hl : k.state.sessions.lookup sessionId = some session) :
    ∃ z, Latest (Writing (sessionWritten sessionId)) (Writing (sessionWritten sessionId))
      k.log z ∧ z.event.1 = .insertSession sessionId session := by
  have hcell : ∀ q s a t, ServerCall.Meaning q s a t → t.sessions.lookup sessionId =
      (sessionWritten sessionId q).getD (s.sessions.lookup sessionId) := by
    intro q s a t hm
    rw [hm.2]
    exact lookup_session_effect sessionId q s
  rcases Moves.cell hcell h with ⟨z, hz, hwritten⟩ | ⟨_, hstart⟩
  · rw [hl] at hwritten
    exact ⟨z, hz, sessionWritten_eq_some.mp hwritten⟩
  · rw [hl] at hstart
    cases hstart

theorem inserted_of_held (h : Serving hmac srv k) {sessionId : String}
    (hheld : (k.state.sessions.lookup sessionId).isSome = true) :
    ∃ z session, Latest (Writing (sessionWritten sessionId)) (Writing (sessionWritten sessionId))
      k.log z ∧ z.event.1 = .insertSession sessionId session := by
  obtain ⟨session, hsession⟩ := Option.isSome_iff_exists.mp hheld
  obtain ⟨z, hz⟩ := inserted_of_lookup h hsession
  exact ⟨z, session, hz⟩

theorem accounts_of_delivered (h : Serving hmac srv k) {x : ServerEntry} (hx : x ∈ k.log)
    {e : LdpEnvelope} (he : (delivered k)[x.caller]? = some e) :
    Accounts hmac srv e x.event.1 := by
  obtain ⟨e', he', haccounts⟩ := entry_accounts h hx
  rw [he] at he'
  cases he'
  exact haccounts

/-- Between two removals of sessions that were there, the sessions were proposed in
two deliveries. -/
theorem proposals_of_ends (h : Serving hmac srv k) {x y : ServerEntry}
    (hsub : [x, y].Sublist k.log) {c d : LdpEnvelope}
    (hx : x.event.1 = .removeSession c.sessionId)
    (hxheld : (x.before.sessions.lookup c.sessionId).isSome = true)
    (hyheld : (y.before.sessions.lookup d.sessionId).isSome = true) :
    ∃ (m n : ℕ) (p q : LdpEnvelope), m ≠ n ∧ (delivered k)[m]? = some p ∧
      (delivered k)[n]? = some q ∧ Proposes hmac srv p ∧ Proposes hmac srv q ∧
      p.sessionId = c.sessionId ∧
      q.sessionId = d.sessionId := by
  obtain ⟨front, back, hlog, hxfront, hyback⟩ := List.cons_sublist_iff.mp hsub
  obtain ⟨b₁, b₂, hfront⟩ := List.append_of_mem hxfront
  obtain ⟨b₃, b₄, hback⟩ := List.append_of_mem (List.singleton_sublist.mp hyback)
  have hxlog : k.log = b₁ ++ x :: (b₂ ++ back) := by rw [hlog, hfront]; simp
  have hylog : k.log = (b₁ ++ x :: (b₂ ++ b₃)) ++ y :: b₄ := by rw [hlog, hfront, hback]; simp
  obtain ⟨k₁, h₁, _, hlog₁, hstate₁⟩ := h.split hxlog
  obtain ⟨k₂, h₂, _, hlog₂, hstate₂⟩ := h.split hylog
  rw [← hstate₁] at hxheld
  rw [← hstate₂] at hyheld
  obtain ⟨z, opened, hz, hzinsert⟩ := inserted_of_held h₁ hxheld
  obtain ⟨w, reopened, hw, hwinsert⟩ := inserted_of_held h₂ hyheld
  rw [hlog₁] at hz
  rw [hlog₂] at hw
  have hzlog : z ∈ k.log := by
    rw [hxlog]
    exact List.mem_append_left _ hz.mem
  have hwlog : w ∈ k.log := by
    rw [hylog]
    exact List.mem_append_left _ hw.mem
  obtain ⟨p, hp, hpaccounts⟩ := entry_accounts h hzlog
  obtain ⟨q, hq, hqaccounts⟩ := entry_accounts h hwlog
  rw [hzinsert] at hpaccounts
  rw [hwinsert] at hqaccounts
  refine ⟨z.caller, w.caller, p, q, ?_, hp, hq, hpaccounts.1, hqaccounts.1, hpaccounts.2.symm,
    hqaccounts.2.symm⟩
  intro hsame
  -- one delivery inserts once, so the later insert is the earlier one, which `x` undid
  rw [hsame, hq] at hp
  cases hp
  have hsession : c.sessionId = d.sessionId := hpaccounts.2.trans hqaccounts.2.symm
  have hxwrites : Writing (sessionWritten d.sessionId) x := by
    simp [Writing, hx, sessionWritten, hsession]
  have hwx : w ≠ x := by
    intro heq
    rw [heq, hx] at hwinsert
    cases hwinsert
  have hlater := hw.after hxwrites hwx
  have hboth : [z, w].Sublist k.log := by
    rw [hylog, List.append_assoc]
    apply (List.singleton_sublist.mpr hz.mem).append
    exact List.singleton_sublist.mpr
      (List.mem_append_left _ (List.mem_cons_of_mem _ hlater))
  apply callers_ne h hboth _ _ hsame
  · rw [hzinsert]
    trivial
  · rw [hwinsert]
    trivial

/-- Two effects come from two deliveries, each of a message that has such an effect. -/
theorem distinct_deliveries (h : Serving hmac srv k) {x y : ServerEntry}
    (hsub : [x, y].Sublist k.log) (hx : Acts x.event.1) (hy : Acts y.event.1)
    {e d : LdpEnvelope} (he : (delivered k)[x.caller]? = some e)
    (hd : (delivered k)[y.caller]? = some d) :
    x.caller ≠ y.caller ∧ Accounts hmac srv e x.event.1 ∧ Accounts hmac srv d y.event.1 := by
  have hxlog : x ∈ k.log := hsub.subset (by simp)
  have hylog : y ∈ k.log := hsub.subset (by simp)
  exact ⟨callers_ne h hsub hx hy, accounts_of_delivered h hxlog he,
    accounts_of_delivered h hylog hd⟩

/-- Deliveries that repeat nothing take effect once. -/
theorem atMostOnce_of_unrepeated (h : Serving hmac srv k)
    (hu : Unrepeated hmac srv (delivered k)) : AtMostOnce k := by
  constructor
  · apply once_iff.mpr
    intro x y hsub hx hy e d he hd hsame
    obtain ⟨skill, input, hxq⟩ := hx
    obtain ⟨skill', input', hyq⟩ := hy
    obtain ⟨hne, hxa, hya⟩ := distinct_deliveries h hsub (by rw [hxq]; trivial)
      (by rw [hyq]; trivial) he hd
    rw [hxq] at hxa
    rw [hyq] at hya
    exact hu.submits _ _ e d hne he hd hxa hya hsame
  · apply once_iff.mpr
    intro x y hsub hx hy e d he hd hsame
    obtain ⟨sessionId, session, hxq⟩ := hx
    obtain ⟨sessionId', session', hyq⟩ := hy
    obtain ⟨hne, hxa, hya⟩ := distinct_deliveries h hsub (by rw [hxq]; trivial)
      (by rw [hyq]; trivial) he hd
    rw [hxq] at hxa
    rw [hyq] at hya
    exact hu.proposals _ _ e d hne he hd hxa.1 hya.1 hsame
  · apply once_iff.mpr
    intro x y hsub hx hy c d hc hd hsame
    obtain ⟨sessionId, hxq, hxheld⟩ := hx
    obtain ⟨sessionId', hyq, hyheld⟩ := hy
    obtain ⟨hne, hxa, hya⟩ := distinct_deliveries h hsub (by rw [hxq]; trivial)
      (by rw [hyq]; trivial) hc hd
    rw [hxq] at hxa
    rw [hyq] at hya
    rw [hxa.2] at hxq hxheld
    rw [hya.2] at hyheld
    obtain ⟨m, n, p, q, hmn, hp, hq, hpp, hqp, hpc, hqd⟩ :=
      proposals_of_ends h hsub hxq hxheld hyheld
    exact hu.closes _ _ c d hne hc hd hxa.1 hya.1 hsame m n p q hmn hp hq hpp hqp hpc hqd

end Runs

section Schedules
variable {hmac : Hmac} {srv : LdpServer} {k : ServerConfig} {i : ℕ} {e : LdpEnvelope}

/-- Questions of the call `i` alone lead from `k` to `k'`. -/
structure Advanced (hmac : Hmac) (srv : LdpServer) (i : ℕ) (k k' : ServerConfig) : Prop where
  serving : Serving hmac srv k'
  delivered : delivered k' = delivered k
  others : ∀ j, j ≠ i → k'.calls[j]? = k.calls[j]?

theorem Advanced.trans {k₁ k₂ : ServerConfig} (h : Advanced hmac srv i k k₁)
    (h' : Advanced hmac srv i k₁ k₂) : Advanced hmac srv i k k₂ where
  serving := h'.serving
  delivered := h'.delivered.trans h.delivered
  others j hj := (h'.others j hj).trans (h.others j hj)

/-- The next question of a call can be answered at once. -/
theorem advance (h : Serving hmac srv k) {q : ServerCall}
    {next : q.Answer → ServerProgram LdpEnvelope} (hi : k.calls[i]? = some (e, .ask q next))
    {a : q.Answer} (ha : q.Answers k.state a) :
    ∃ k', Advanced hmac srv i k k' ∧ k'.log = k.log ++ [⟨i, k.state, ⟨q, a⟩⟩] ∧
      k'.state = q.effect k.state ∧ k'.calls[i]? = some (e, next a) := by
  have hlt := (List.getElem?_eq_some_iff.mp hi).1
  refine ⟨_, ⟨h.tail (.act hi ⟨ha, rfl⟩), ?_, ?_⟩, rfl, rfl, List.getElem?_set_self hlt⟩
  · simp only [delivered, List.map_set]
    apply set_eq_of_getElem?
    rw [List.getElem?_map, hi]
    rfl
  · intro j hj
    exact List.getElem?_set_ne (Ne.symm hj)

theorem submits_acts (h : Serving hmac srv k)
    (hi : k.calls[i]? = some (e, srv.handleMessage hmac e)) (he : Submits hmac srv e) :
    ∃ k' x, Advanced hmac srv i k k' ∧ k'.log = k.log ++ [x] ∧ x.caller = i ∧ RunsHandler x := by
  obtain ⟨hsig, taskId, skill, input, contract, hb⟩ := he
  unfold LdpServer.handleMessage LdpServer.dispatch at hi
  rw [hsig, hb] at hi
  obtain ⟨k', hadvanced, hlog, _⟩ := advance h hi (a := .null) trivial
  exact ⟨k', _, hadvanced, hlog, rfl, skill, input, rfl⟩

theorem proposes_acts (h : Serving hmac srv k)
    (hi : k.calls[i]? = some (e, srv.handleMessage hmac e)) (he : Proposes hmac srv e) :
    ∃ k' w x, Advanced hmac srv i k k' ∧ k'.log = k.log ++ [w, x] ∧ x.caller = i ∧
      OpensSession x ∧ (k'.state.sessions.lookup e.sessionId).isSome = true := by
  obtain ⟨hsig, config, hb, ht⟩ := he
  unfold LdpServer.handleMessage LdpServer.dispatch at hi
  rw [hsig, hb] at hi
  simp only [LdpServer.handleSessionPropose, if_pos ht] at hi
  obtain ⟨k₁, h₁, hlog₁, _, hi₁⟩ := advance h hi (a := (0 : ℤ)) trivial
  obtain ⟨k₂, h₂, hlog₂, hstate₂, _⟩ := advance h₁.serving hi₁ (a := ()) trivial
  refine ⟨k₂, ⟨i, k.state, ⟨.utcNow, (0 : ℤ)⟩⟩, ⟨i, k₁.state, ⟨.insertSession e.sessionId
    (srv.proposedSession e config 0), ()⟩⟩, h₁.trans h₂, ?_, rfl, ⟨_, _, rfl⟩, ?_⟩
  · rw [hlog₂, hlog₁, List.append_assoc]
    rfl
  · rw [hstate₂]
    simp [ServerCall.effect]

theorem closes_acts (h : Serving hmac srv k)
    (hi : k.calls[i]? = some (e, srv.handleMessage hmac e)) (he : Closes hmac srv e)
    (hheld : (k.state.sessions.lookup e.sessionId).isSome = true) :
    ∃ k' x, Advanced hmac srv i k k' ∧ k'.log = k.log ++ [x] ∧ x.caller = i ∧
      EndsSession x := by
  obtain ⟨hsig, reason, hb⟩ := he
  unfold LdpServer.handleMessage LdpServer.dispatch at hi
  rw [hsig, hb] at hi
  obtain ⟨k', hadvanced, hlog, _⟩ := advance h hi (a := ()) trivial
  exact ⟨k', _, hadvanced, hlog, rfl, e.sessionId, rfl, hheld⟩

/-- All of the envelopes have come and nothing has happened yet. -/
def arrived (hmac : Hmac) (srv : LdpServer) (envelopes : List LdpEnvelope) : ServerConfig :=
  ⟨[], .empty, envelopes.map fun e => (e, srv.handleMessage hmac e)⟩

theorem arrived_serving (hmac : Hmac) (srv : LdpServer) (envelopes : List LdpEnvelope) :
    Serving hmac srv (arrived hmac srv envelopes) :=
  Moves.startAll _ _ _ envelopes

theorem arrived_delivered (hmac : Hmac) (srv : LdpServer) (envelopes : List LdpEnvelope) :
    delivered (arrived hmac srv envelopes) = envelopes := by
  simp only [delivered, arrived, List.map_map]
  exact List.map_id envelopes

theorem arrived_call {envelopes : List LdpEnvelope} (hi : envelopes[i]? = some e) :
    (arrived hmac srv envelopes).calls[i]? = some (e, srv.handleMessage hmac e) := by
  simp [arrived, hi]

/-- Copies of one message take effect in some order of events. -/
theorem unrepeated_of_atMostOnce {envelopes : List LdpEnvelope}
    (hall : ∀ k, Serving hmac srv k → delivered k = envelopes → AtMostOnce k) :
    Unrepeated hmac srv envelopes := by
  have h₀ := arrived_serving hmac srv envelopes
  have hd₀ := arrived_delivered hmac srv envelopes
  constructor
  · intro i j e d hij hi hj he hd hsame
    obtain ⟨k₁, x, h₁, hlog₁, hx, hxruns⟩ := submits_acts h₀ (arrived_call hi) he
    obtain ⟨k₂, y, h₂, hlog₂, hy, hyruns⟩ := submits_acts h₁.serving
      ((h₁.others j (Ne.symm hij)).trans (arrived_call hj)) hd
    have hd₂ := h₂.delivered.trans (h₁.delivered.trans hd₀)
    have hsub : [x, y].Sublist k₂.log := by rw [hlog₂, hlog₁]; simp [arrived]
    have honce := once_iff.mp (hall k₂ h₂.serving hd₂).handled hsub hxruns hyruns e d
    rw [hd₂, hx, hy] at honce
    exact honce hi hj hsame
  · intro i j e d hij hi hj he hd hsame
    obtain ⟨k₁, v, x, h₁, hlog₁, hx, hxopens, _⟩ := proposes_acts h₀ (arrived_call hi) he
    obtain ⟨k₂, w, y, h₂, hlog₂, hy, hyopens, _⟩ := proposes_acts h₁.serving
      ((h₁.others j (Ne.symm hij)).trans (arrived_call hj)) hd
    have hd₂ := h₂.delivered.trans (h₁.delivered.trans hd₀)
    have hsub : [x, y].Sublist k₂.log := by rw [hlog₂, hlog₁]; simp [arrived]
    have honce := once_iff.mp (hall k₂ h₂.serving hd₂).opened hsub hxopens hyopens e d
    rw [hd₂, hx, hy] at honce
    exact honce hi hj hsame
  · intro i j c d hij hi hj hc hd hsame m n p q hmn hm hn hp hq hpc hqd
    have hcp : ∀ {a b : ℕ} {c p : LdpEnvelope}, envelopes[a]? = some c → envelopes[b]? = some p →
        Closes hmac srv c → Proposes hmac srv p → a ≠ b := by
      intro a b c p ha hb hc hp hab
      obtain ⟨_, _, hcbody⟩ := hc
      obtain ⟨_, _, hpbody, _⟩ := hp
      rw [hab, hb] at ha
      cases ha
      rw [hcbody] at hpbody
      cases hpbody
    -- propose, close, propose again, close again
    obtain ⟨k₁, v, a, h₁, hlog₁, _, _, hheld₁⟩ := proposes_acts h₀ (arrived_call hm) hp
    rw [hpc] at hheld₁
    obtain ⟨k₂, x, h₂, hlog₂, hx, hxends⟩ := closes_acts h₁.serving
      ((h₁.others i (hcp hi hm hc hp)).trans (arrived_call hi)) hc hheld₁
    obtain ⟨k₃, w, b, h₃, hlog₃, _, _, hheld₃⟩ := proposes_acts h₂.serving
      ((h₂.others n (hcp hi hn hc hq).symm).trans
        ((h₁.others n (Ne.symm hmn)).trans (arrived_call hn))) hq
    rw [hqd] at hheld₃
    obtain ⟨k₄, y, h₄, hlog₄, hy, hyends⟩ := closes_acts h₃.serving
      ((h₃.others j (hcp hj hn hd hq)).trans ((h₂.others j (Ne.symm hij)).trans
        ((h₁.others j (hcp hj hm hd hp)).trans (arrived_call hj)))) hd hheld₃
    have hd₂ := h₂.delivered.trans (h₁.delivered.trans hd₀)
    have hd₄ := h₄.delivered.trans (h₃.delivered.trans hd₂)
    have hsub : [x, y].Sublist k₄.log := by rw [hlog₄, hlog₃, hlog₂, hlog₁]; simp [arrived]
    have honce := once_iff.mp (hall k₄ h₄.serving hd₄).ended hsub hxends hyends c d
    rw [hd₄, hx, hy] at honce
    exact honce hi hj hsame

/-- Whatever the order of events, no message takes effect twice, exactly when what
the network delivers repeats no task and no proposal, and no close beyond the one
session it closes. -/
theorem atMostOnce_iff (hmac : Hmac) (srv : LdpServer) (envelopes : List LdpEnvelope) :
    (∀ k, Serving hmac srv k → delivered k = envelopes → AtMostOnce k) ↔
      Unrepeated hmac srv envelopes := by
  refine ⟨unrepeated_of_atMostOnce, ?_⟩
  intro hu k h hk
  apply atMostOnce_of_unrepeated h
  rw [hk]
  exact hu

end Schedules

/-- A signed submission with a nonce. -/
def capturedSubmission (hmac : Hmac) : LdpEnvelope :=
  applySignature hmac { LdpEnvelope.new "m1" "t0" "s1" "ldp:a" "ldp:b"
    (.taskSubmit "t1" "echo" (.string "x") none) .text with nonce := some "n1" } "secret"

/-- Delivered twice, it runs the handler twice. -/
theorem handled_twice : ¬ ∀ (hmac : Hmac) (srv : LdpServer) (secret : String) (k : ServerConfig),
    srv.signingSecret = some secret → Serving hmac srv k → AtMostOnce k := by
  intro h
  have hunrepeated : Unrepeated submissionMac ServerGate.signingServer
      [capturedSubmission submissionMac, capturedSubmission submissionMac] :=
    unrepeated_of_atMostOnce fun k hk _ =>
      h submissionMac ServerGate.signingServer "secret" k rfl hk
  have hsubmits : Submits submissionMac ServerGate.signingServer
      (capturedSubmission submissionMac) :=
    ⟨ServerGate.signatureError_of_valid rfl (carriesValidSignature_applySignature ..),
      "t1", "echo", .string "x", none, rfl⟩
  exact hunrepeated.submits 0 1 _ _ (by decide) rfl rfl hsubmits hsubmits ⟨rfl, rfl⟩

end LdpProtocol.RepeatedMessages
