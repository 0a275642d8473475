import LdpProtocol.RepeatedMessages
import LdpProtocol.UnseenCalls

/-!
# Senders that do not name each other's ids

The server asks no message whose session or task it names: a proposal replaces
and a close removes whatever is held under the envelope's session id, and so do
submissions and cancellations with a task id. What separates two senders is only
that neither writes an id the other names. Then the one cannot tell whether the
other has sent anything.
-/
namespace LdpProtocol.SenderIsolation
open InteractivePrograms InteractivePrograms.Program InterferedRuns ConcurrentCalls UnseenCalls
open JsonValues PayloadModes MessageTypes EnvelopeSigning ServerHandlers TaskHistory
open RepeatedMessages (delivered sessionWritten lookup_session_effect)

/-- The session a message may replace or remove. -/
def sessionWrite (e : LdpEnvelope) : Option String :=
  match e.body with
  | .sessionPropose _ | .sessionClose _ => some e.sessionId
  | _ => none

/-- The task whose record a message may replace or remove. -/
def taskWrite (e : LdpEnvelope) : Option String :=
  match e.body with
  | .taskSubmit taskId _ _ _ | .taskCancel taskId => some taskId
  | _ => none

/-- The task a message is about. -/
def taskNamed (e : LdpEnvelope) : Option String :=
  match e.body with
  | .taskSubmit taskId _ _ _ | .taskUpdate taskId _ _ | .taskCancel taskId => some taskId
  | _ => none

/-- One message writes neither the session nor the task that the other names. -/
def Avoids (e d : LdpEnvelope) : Prop :=
  sessionWrite e ≠ some d.sessionId ∧ ∀ taskId, taskWrite e = some taskId →
    taskNamed d ≠ some taskId

/-- The ids a message may write and read. -/
def Permits (e : LdpEnvelope) : ServerCall → Prop
  | .insertSession id _ | .removeSession id => sessionWrite e = some id
  | .insertTask id _ | .removeTask id => taskWrite e = some id
  | .getSession id => id = e.sessionId
  | .getTask id => taskNamed e = some id
  | _ => True

theorem permits_of_asks {srv : LdpServer} {e : LdpEnvelope} {q : ServerCall}
    (h : ServerGate.Asks srv e q) : Permits e q := by
  cases q with
  | insertSession id session =>
      obtain ⟨hid, config, hb, _⟩ := h
      simp [Permits, sessionWrite, hb, hid]
  | removeSession id =>
      obtain ⟨hid, reason, hb⟩ := h
      simp [Permits, sessionWrite, hb, hid]
  | insertTask id record =>
      obtain ⟨skill, input, contract, hb⟩ := h
      simp [Permits, taskWrite, hb]
  | removeTask id =>
      have hb : e.body = .taskCancel id := h
      simp [Permits, taskWrite, hb]
  | getTask id =>
      obtain ⟨progress, message, hb⟩ := h
      simp [Permits, taskNamed, hb]
  | getSession id => exact h
  | _ => trivial

theorem handleMessage_permits (hmac : Hmac) (srv : LdpServer) (e : LdpEnvelope) :
    (srv.handleMessage hmac e).Uses (fun _ _ => True) (Permits e) :=
  (ServerGate.handleMessage_asks hmac srv e).mono fun _ hq => permits_of_asks hq.2

/-- Two states that look the same under some session and task ids. -/
def Same (sessions tasks : String → Prop) (s t : ServerState) : Prop :=
  (∀ id, sessions id → s.sessions.lookup id = t.sessions.lookup id) ∧
    ∀ id, tasks id → s.tasks.lookup id = t.tasks.lookup id

section Same
variable {sessions tasks : String → Prop} {q : ServerCall} {e : LdpEnvelope}

theorem Same.effect {s t : ServerState} (h : Same sessions tasks s t) (q : ServerCall) :
    Same sessions tasks (q.effect s) (q.effect t) := by
  constructor
  · intro id hid
    rw [lookup_session_effect, lookup_session_effect, h.1 id hid]
  · intro id hid
    rw [lookup_effect, lookup_effect, h.2 id hid]

/-- A question whose answer does not depend on what is not seen. -/
theorem mirrored_of_reads (hsession : ∀ id, q = .getSession id → sessions id)
    (htask : ∀ id, q = .getTask id → tasks id) :
    Mirrored ServerCall.Meaning (Same sessions tasks) q := by
  intro s a t s' hm hsame
  obtain ⟨ha, ht⟩ := hm
  refine ⟨q.effect s', ⟨?_, rfl⟩, by rw [ht]; exact hsame.effect q⟩
  cases q with
  | getSession id => exact Eq.trans ha (hsame.1 id (hsession id rfl))
  | getTask id => exact Eq.trans ha (hsame.2 id (htask id rfl))
  | _ => trivial

theorem unseen_of_writes (hsession : ∀ id, sessions id → sessionWritten id q = none)
    (htask : ∀ id, tasks id → recordWritten id q = none) :
    Unseen ServerCall.Meaning (Same sessions tasks) q := by
  intro s a t s' hm hsame
  rw [hm.2]
  constructor
  · intro id hid
    rw [lookup_session_effect, hsession id hid, Option.getD_none, hsame.1 id hid]
  · intro id hid
    rw [lookup_effect, htask id hid, Option.getD_none, hsame.2 id hid]

theorem unseen_of_passive (h : q.Passive) :
    Unseen ServerCall.Meaning (Same sessions tasks) q := by
  apply unseen_of_writes <;>
    · intro id _
      cases q <;> first | rfl | exact h.elim

theorem unseen_of_permits (h : Permits e q)
    (hsession : ∀ id, sessions id → sessionWrite e ≠ some id)
    (htask : ∀ id, tasks id → taskWrite e ≠ some id) :
    Unseen ServerCall.Meaning (Same sessions tasks) q := by
  apply unseen_of_writes
  · intro id hid
    have hne := hsession id hid
    cases q with
    | insertSession written session =>
        have hw : sessionWrite e = some written := h
        rw [sessionWritten, if_neg (by rintro rfl; exact hne hw)]
    | removeSession written =>
        have hw : sessionWrite e = some written := h
        rw [sessionWritten, if_neg (by rintro rfl; exact hne hw)]
    | _ => rfl
  · intro id hid
    have hne := htask id hid
    cases q with
    | insertTask written record =>
        have hw : taskWrite e = some written := h
        rw [recordWritten, if_neg (by rintro rfl; exact hne hw)]
    | removeTask written =>
        have hw : taskWrite e = some written := h
        rw [recordWritten, if_neg (by rintro rfl; exact hne hw)]
    | _ => rfl

theorem mirrored_of_permits (h : Permits e q) (hsession : sessions e.sessionId)
    (htask : ∀ id, taskNamed e = some id → tasks id) :
    Mirrored ServerCall.Meaning (Same sessions tasks) q := by
  apply mirrored_of_reads
  · intro id hq
    rw [hq] at h
    have hid : id = e.sessionId := h
    rw [hid]
    exact hsession
  · intro id hq
    rw [hq] at h
    exact htask id h

end Same

section Fading
variable {sessions tasks : String → Prop}

theorem fades_of_asksPassively {α : Type} {p : ServerProgram α}
    (h : ServerGate.AsksPassively p) : Fades ServerCall.Meaning (Same sessions tasks) p :=
  fades_of_unseen (h.mono fun _ => unseen_of_passive)

theorem mirrored_of_blind {q : ServerCall} (hsession : ∀ id, q ≠ .getSession id)
    (htask : ∀ id, q ≠ .getTask id) : Mirrored ServerCall.Meaning (Same sessions tasks) q :=
  mirrored_of_reads (fun id hq => (hsession id hq).elim) (fun id hq => (htask id hq).elim)

theorem handleSessionPropose_fades (srv : LdpServer) (e : LdpEnvelope) (config : Value) :
    Fades ServerCall.Meaning (Same sessions tasks) (srv.handleSessionPropose e config) := by
  unfold LdpServer.handleSessionPropose
  split
  · refine .inl ⟨mirrored_of_blind (by simp) (by simp), fun opened => ?_⟩
    refine .inl ⟨mirrored_of_blind (by simp) (by simp), fun _ => ?_⟩
    exact fades_of_asksPassively (ServerGate.respond_asksPassively ..)
  · exact fades_of_asksPassively (ServerGate.respond_asksPassively ..)

/-- Every handler writes before it reads. -/
theorem dispatch_fades (srv : LdpServer) (e : LdpEnvelope) :
    Fades ServerCall.Meaning (Same sessions tasks) (srv.dispatch e) := by
  unfold LdpServer.dispatch
  cases e.body with
  | hello => exact fades_of_asksPassively (ServerGate.respond_asksPassively ..)
  | sessionPropose config => exact handleSessionPropose_fades srv e config
  | taskSubmit taskId skill input =>
      refine .inl ⟨mirrored_of_blind (by simp) (by simp), fun output => ?_⟩
      refine .inl ⟨mirrored_of_blind (by simp) (by simp), fun _ => ?_⟩
      apply fades_of_asksPassively
      apply (ServerGate.resultProvenance_asksPassively srv).bind
      intro provenance
      exact ⟨trivial, fun _ _ => ServerGate.respond_asksPassively ..⟩
  | taskUpdate =>
      exact fades_of_asksPassively (ServerGate.handleTaskStatusQuery_asksPassively ..)
  | taskCancel =>
      refine .inl ⟨mirrored_of_blind (by simp) (by simp), fun _ => ?_⟩
      exact fades_of_asksPassively (ServerGate.respond_asksPassively ..)
  | sessionClose =>
      refine .inl ⟨mirrored_of_blind (by simp) (by simp), fun _ => ?_⟩
      exact fades_of_asksPassively (ServerGate.respond_asksPassively ..)
  | _ => trivial

theorem handleMessage_fades (hmac : Hmac) (srv : LdpServer) (e : LdpEnvelope) :
    Fades ServerCall.Meaning (Same sessions tasks) (srv.handleMessage hmac e) := by
  unfold LdpServer.handleMessage
  split
  · trivial
  · exact (dispatch_fades srv e).bind_pure _

end Fading

section Runs
variable {hmac : Hmac} {srv : LdpServer} {k : ServerConfig} {a b : String}

/-- The session ids that a sender's messages carry. -/
def SessionsOf (k : ServerConfig) (a : String) (id : String) : Prop :=
  ∃ d ∈ delivered k, d.from_ = a ∧ d.sessionId = id

/-- The task ids that a sender's messages carry. -/
def TasksOf (k : ServerConfig) (a : String) (id : String) : Prop :=
  ∃ d ∈ delivered k, d.from_ = a ∧ taskNamed d = some id

/-- What a step changes is what its message names. -/
theorem step_frame (h : Serving hmac srv k) {k' : ServerConfig}
    (hmove : Move ServerCall.Meaning (srv.handleMessage hmac) k k') :
    (∀ id, k'.state.sessions.lookup id ≠ k.state.sessions.lookup id →
      ∃ x e p, k'.log = k.log ++ [x] ∧ k'.calls[x.caller]? = some (e, p) ∧
        sessionWrite e = some id) ∧
    (∀ id, k'.state.tasks.lookup id ≠ k.state.tasks.lookup id →
      ∃ x e p, k'.log = k.log ++ [x] ∧ k'.calls[x.caller]? = some (e, p) ∧
        taskWrite e = some id) := by
  have hserving' : Serving hmac srv k' := h.tail hmove
  have hfollows := hserving'.follows
  cases hmove with
  | start c => exact ⟨fun id hne => (hne rfl).elim, fun id hne => (hne rfl).elim⟩
  | @act i e q next a t hi hm =>
      have hlt := (List.getElem?_eq_some_iff.mp hi).1
      have hcall : (k.calls.set i (e, next a))[i]? = some (e, next a) :=
        List.getElem?_set_self hlt
      have hpermits := (hfollows.along i _ _ hcall).uses (handleMessage_permits hmac srv e) ⟨q, a⟩
        (mem_traceOf.mpr ⟨⟨i, k.state, ⟨q, a⟩⟩, by simp, rfl, rfl⟩)
      constructor
      · intro id hne
        refine ⟨_, e, _, rfl, hcall, ?_⟩
        by_contra hnot
        apply hne
        have hunseen : Unseen ServerCall.Meaning (Same (· = id) fun _ => False) q :=
          unseen_of_permits hpermits (fun other hother => by rw [hother]; exact hnot)
            (fun _ hnone => hnone.elim)
        exact (hunseen k.state a t k.state hm ⟨fun _ _ => rfl, fun _ _ => rfl⟩).1 id rfl
      · intro id hne
        refine ⟨_, e, _, rfl, hcall, ?_⟩
        by_contra hnot
        apply hne
        have hunseen : Unseen ServerCall.Meaning (Same (fun _ => False) (· = id)) q :=
          unseen_of_permits hpermits (fun _ hnone => hnone.elim)
            (fun other hother => by rw [hother]; exact hnot)
        exact (hunseen k.state a t k.state hm ⟨fun _ _ => rfl, fun _ _ => rfl⟩).2 id rfl

/-- What a message leaves under its ids, whoever it found them held for. -/
structure Leaves (srv : LdpServer) (e : LdpEnvelope) (u : ServerState) : Prop where
  propose : ∀ config, e.body = .sessionPropose config →
    srv.identity.trustDomain.trusts (LdpServer.remoteDomain config) = true →
    ∃ opened, u.sessions.lookup e.sessionId = some (srv.proposedSession e config opened)
  close : ∀ reason, e.body = .sessionClose reason → u.sessions.lookup e.sessionId = none
  submit : ∀ taskId skill input contract, e.body = .taskSubmit taskId skill input contract →
    ∃ output, u.tasks.lookup taskId = some (LdpServer.completedRecord taskId skill output)
  cancel : ∀ taskId, e.body = .taskCancel taskId → u.tasks.lookup taskId = none

theorem leaves_of_handled {e : LdpEnvelope} {s u : ServerState} {inv : List (String × Value)}
    {outcome : Except String LdpEnvelope} (h : ServerRuns.Handled srv e s inv u outcome) :
    Leaves srv e u := by
  cases h with
  | accept hb _ =>
      refine ⟨?_, by simp [hb], by simp [hb], by simp [hb]⟩
      intro config hbody _
      rw [hb] at hbody
      cases hbody
      exact ⟨_, AList.lookup_insert _⟩
  | reject hb huntrusted =>
      refine ⟨?_, by simp [hb], by simp [hb], by simp [hb]⟩
      intro config hbody htrusts
      rw [hb] at hbody
      cases hbody
      rw [huntrusted] at htrusts
      cases htrusts
  | submit hb =>
      refine ⟨by simp [hb], by simp [hb], ?_, by simp [hb]⟩
      intro taskId skill input contract hbody
      rw [hb] at hbody
      cases hbody
      exact ⟨_, AList.lookup_insert _⟩
  | cancel hb =>
      refine ⟨by simp [hb], by simp [hb], by simp [hb], ?_⟩
      intro taskId hbody
      rw [hb] at hbody
      cases hbody
      exact AList.lookup_erase _ _
  | close hb =>
      refine ⟨by simp [hb], ?_, by simp [hb], by simp [hb]⟩
      intro reason _
      exact AList.lookup_erase _ _
  | hello hb => exact ⟨by simp [hb], by simp [hb], by simp [hb], by simp [hb]⟩
  | query produced hb _ => exact ⟨by simp [hb], by simp [hb], by simp [hb], by simp [hb]⟩
  | unknownTask hb _ => exact ⟨by simp [hb], by simp [hb], by simp [hb], by simp [hb]⟩
  | unhandled hb =>
      refine ⟨?_, ?_, ?_, ?_⟩ <;> intros <;> simp_all [LdpMessageBody.tag]

/-- The messages of a sender who writes nothing that another names can be left out
of any run, and the other's messages go as they went. -/
theorem left_out (h : Serving hmac srv k)
    (havoids : ∀ e ∈ delivered k, ∀ d ∈ delivered k, e.from_ = b → d.from_ = a → Avoids e d) :
    ∃ k', Serving hmac srv k' ∧
      Thinned ServerCall.Meaning (Same (SessionsOf k a) (TasksOf k a)) (fun e => e.from_ = a)
        (fun e => decide (e.from_ = b)) k k' := by
  apply thinned h ⟨fun _ _ => rfl, fun _ _ => rfl⟩
  intro e he
  constructor
  · intro hb
    have hfrom : e.from_ = b := of_decide_eq_true hb
    apply (handleMessage_permits hmac srv e).mono
    intro q hq
    apply unseen_of_permits hq
    · intro id hid hwrite
      obtain ⟨d, hd, hda, hdid⟩ := hid
      exact (havoids e he d hd hfrom hda).1 (by rw [hdid]; exact hwrite)
    · intro id hid hwrite
      obtain ⟨d, hd, hda, hdid⟩ := hid
      exact (havoids e he d hd hfrom hda).2 id hwrite hdid
  · intro _ ha
    apply (handleMessage_permits hmac srv e).mono
    intro q hq
    apply mirrored_of_permits hq
    · exact ⟨e, he, ha, rfl⟩
    · intro id hid
      exact ⟨e, he, ha, hid⟩
  · intro _ _
    exact handleMessage_fades hmac srv e

/-- A message that passes the gate replaces or removes the session under its session id
or the record of its task, whoever sent the earlier one, unless it is a proposal from
an untrusted domain. It changes no other session or record. In every run in which `b`
writes no session and no task that a message of `a` names, `a` could not tell if the
messages of `b` were left out: its calls have come as far and been answered the same,
and the sessions and records it names are the same. -/
theorem isolated (hmac : Hmac) (srv : LdpServer) (k : ServerConfig) (h : Serving hmac srv k)
    (a b : String) (hab : a ≠ b) :
    (∀ (e : LdpEnvelope) (s u : ServerState) (tr : ServerRuns.Trace)
      (r : Except String LdpEnvelope), srv.signatureError hmac e = none →
      Run ServerCall.Meaning Quiet (srv.handleMessage hmac e) s tr u r → Leaves srv e u) ∧
    (∀ k', Move ServerCall.Meaning (srv.handleMessage hmac) k k' →
      (∀ id, k'.state.sessions.lookup id ≠ k.state.sessions.lookup id →
        ∃ x e p, k'.log = k.log ++ [x] ∧ k'.calls[x.caller]? = some (e, p) ∧
          sessionWrite e = some id) ∧
      (∀ id, k'.state.tasks.lookup id ≠ k.state.tasks.lookup id →
        ∃ x e p, k'.log = k.log ++ [x] ∧ k'.calls[x.caller]? = some (e, p) ∧
          taskWrite e = some id)) ∧
    ((∀ e ∈ delivered k, ∀ d ∈ delivered k, e.from_ = b → d.from_ = a → Avoids e d) →
      ∃ k', Serving hmac srv k' ∧
        delivered k' = (delivered k).filter (fun e => decide (e.from_ ≠ b)) ∧
        (k'.calls.filter fun x => decide (x.1.from_ = a)) =
          (k.calls.filter fun x => decide (x.1.from_ = a)) ∧
        (∀ id, SessionsOf k a id →
          k'.state.sessions.lookup id = k.state.sessions.lookup id) ∧
        ∀ id, TasksOf k a id → k'.state.tasks.lookup id = k.state.tasks.lookup id) := by
  refine ⟨?_, fun k' hmove => step_frame h hmove, ?_⟩
  · intro e s u tr r hsig hrun
    rcases ServerRuns.handleMessage_handled hrun with ⟨error, herror, _⟩ | ⟨_, _, hhandled, _⟩
    · rw [hsig] at herror
      cases herror
    · exact leaves_of_handled hhandled
  · intro havoids
    obtain ⟨k', hserving, hthin⟩ := left_out h havoids
    refine ⟨k', hserving, ?_, ?_, ?_, ?_⟩
    · rw [delivered, hthin.names]
      apply List.filter_congr
      intro e _
      simp
    · apply hthin.watching
      intro e ha
      simp [ha, hab]
    · intro id hid
      exact (hthin.same.1 id hid).symm
    · intro id hid
      exact (hthin.same.2 id hid).symm

end Runs

/-- A proposal of one sender, and a close of its session by another. -/
def proposalOfA : LdpEnvelope :=
  LdpEnvelope.new "m1" "t0" "s1" "ldp:a" "ldp:srv"
    (.sessionPropose (.object [("trust_domain", .string "test-domain")])) .text

def closeByB (sessionId : String) : LdpEnvelope :=
  LdpEnvelope.new "m2" "t0" sessionId "ldp:b" "ldp:srv" (.sessionClose none) .text

/-- Anyone can close a session. -/
theorem closed_by_other : ¬ ∀ (hmac : Hmac) (srv : LdpServer) (k : ServerConfig) (e : LdpEnvelope)
    (tr : ServerRuns.Trace) (u : ServerState) (r : Except String LdpEnvelope) (id : String)
    (session : LdpSession), Serving hmac srv k →
    Run ServerCall.Meaning Quiet (srv.handleMessage hmac e) k.state tr u r →
    k.state.sessions.lookup id = some session → session.remoteDelegateId ≠ e.from_ →
    u.sessions.lookup id = some session := by
  intro h
  obtain ⟨log, hserving⟩ := serving_echo submissionMac (LdpServer.echoServer "ldp:srv" "S") .refl
    proposalOfA
  have hclosed := h submissionMac _ _ (closeByB "s1") _ _ _ "s1" _ hserving
    (exec_run ServerCall.echo ServerCall.echo_meaning _ _) rfl (by decide)
  cases hclosed

/-- Two senders with a session each. -/
theorem isolated_closeByB : ∃ k', Serving submissionMac (LdpServer.echoServer "ldp:srv" "S") k' ∧
    delivered k' = [proposalOfA] ∧ (k'.state.sessions.lookup "s1").isSome = true := by
  obtain ⟨log, h₁⟩ := serving_echo submissionMac (LdpServer.echoServer "ldp:srv" "S") .refl
    proposalOfA
  obtain ⟨log', h₂⟩ := serving_echo submissionMac (LdpServer.echoServer "ldp:srv" "S") h₁
    (closeByB "s2")
  obtain ⟨k', hserving, hdelivered, _, hsessions, _⟩ :=
    (isolated submissionMac _ _ h₂ "ldp:a" "ldp:b" (by decide)).2.2 (by
      intro e he d hd heb hda
      have hed : e = closeByB "s2" ∧ d = proposalOfA := by
        simp only [delivered, List.map_append, List.map_cons, List.map_nil, List.mem_append,
          List.mem_singleton, idle] at he hd
        constructor
        · rcases he with (he | he) | he
          · cases he
          · rw [he] at heb
            exact absurd heb (by decide)
          · exact he
        · rcases hd with (hd | hd) | hd
          · cases hd
          · exact hd
          · rw [hd] at hda
            exact absurd hda (by decide)
      rw [hed.1, hed.2]
      exact ⟨by decide, fun taskId htask => by cases htask⟩)
  refine ⟨k', hserving, hdelivered, ?_⟩
  rw [hsessions "s1" ⟨proposalOfA, by simp [delivered], rfl, rfl⟩]
  rfl

end LdpProtocol.SenderIsolation
