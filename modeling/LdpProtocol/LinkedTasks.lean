import LdpProtocol.Handshake
import LdpProtocol.TaskHistory

/-!
# Tasks at a Rust server among other messages

What the server does to the record of a task whose id the client has drawn, when
the messages of others leave such records alone. A submission stores what the
handler returned, a query reports what is stored, a cancellation removes it. The
handler is a relation between skill, input and output.
-/
namespace LdpProtocol.LinkedTasks
open InteractivePrograms InterferedRuns LinkedParties Relation
open InteractivePrograms.Program (call_bind pure_eq ask_bind pure_bind_eq)
open JsonValues PayloadModes MessageTypes EnvelopeSigning ServerHandlers
open ServerGate (respond_asksPassively resultProvenance_asksPassively untouched_of_asksPassively)
open ServerRuns (statusBody)
open TaskHistory (Writes lookup_effect_of_not_writes)
open LinkedServer (Serves handleMessage_ok respond_among)
open LinkedSessionManager (Exchange Peer)

/-- What a handler may return for a skill and an input. -/
abbrev Handler := String → Value → Value → Prop

/-- A step of a message of someone else: it writes no record under the ids. -/
def Apart (drawn : List String) (s t : ServerState) : Prop :=
  ∃ q a, ServerCall.Meaning q s a t ∧ ∀ id ∈ drawn, ¬ Writes id q

/-- The server as a peer, with what its handler returns. -/
inductive Works (hmac : Hmac) (srv : LdpServer) (handles : Handler)
    (others : List String → ServerState → ServerState → Prop) (drawn : List String)
    (document : Value) (s : ServerState) : Except String Value → ServerState → Prop
  | handled {e : LdpEnvelope} {tr : List (Event ServerCall ServerCall.Answer)} {t : ServerState}
      {r : Except String LdpEnvelope} : LdpEnvelope.fromValue document = some e →
      Run ServerCall.Meaning (others drawn) (srv.handleMessage hmac e) s tr t r →
      (∀ skill input output, ⟨.handler skill input, output⟩ ∈ tr → handles skill input output) →
      Works hmac srv handles others drawn document s (r.map LdpEnvelope.toValue) t
  | invalid (text : String) : LdpEnvelope.fromValue document = none →
      Works hmac srv handles others drawn document s (.error text) s

theorem works_echo (hmac : Hmac) (srv : LdpServer)
    (others : List String → ServerState → ServerState → Prop) (drawn : List String)
    (document : Value) (s : ServerState) :
    Works hmac srv (fun _ input output => output = .object [("echo", input)]) others drawn document
      s (LinkedServer.serve hmac srv document s).1 (LinkedServer.serve hmac srv document s).2 := by
  unfold LinkedServer.serve
  cases he : LdpEnvelope.fromValue document with
  | none => exact .invalid _ he
  | some e =>
      refine .handled he (exec_run ServerCall.echo ServerCall.echo_meaning _ _) ?_
      intro skill input output hmem
      refine exec_events (P := fun ev : Event ServerCall ServerCall.Answer => ∀ output,
        ev = ⟨.handler skill input, output⟩ → output = .object [("echo", input)]) ?_ _ _ _ hmem
        output rfl
      intro q s output hq
      cases q with
      | handler =>
          cases hq
          rfl
      | _ => cases hq

section Store
variable {others : List String → ServerState → ServerState → Prop} {drawn : List String}
  {id : String} {s t : ServerState}

theorem Apart.lookup (h : Apart drawn s t) (hid : id ∈ drawn) :
    t.tasks.lookup id = s.tasks.lookup id := by
  obtain ⟨q, a, hm, hwrites⟩ := h
  rw [hm.2]
  exact lookup_effect_of_not_writes (hwrites id hid) s

theorem apart_lookup (hothers : ∀ d s t, others d s t → Apart d s t) (hid : id ∈ drawn)
    (h : ReflTransGen (Respecting others drawn) s t) :
    t.tasks.lookup id = s.tasks.lookup id := by
  induction h with
  | refl => rfl
  | tail _ hstep ih =>
      obtain ⟨d, hd, hother⟩ := hstep
      rw [(hothers _ _ _ hother).lookup (hd hid), ih]

end Store

section Among
variable {hmac : Hmac} {srv : LdpServer} {E : ServerState → ServerState → Prop}
  {e response : LdpEnvelope} {s t : ServerState} {tr : List (Event ServerCall ServerCall.Answer)}
  {taskId skill : String} {input : Value}

/-- What a message that is answered asks is what its dispatch asks. -/
theorem dispatched (h : Run ServerCall.Meaning E (srv.handleMessage hmac e) s tr t (.ok response)) :
    ∃ u raw, Run ServerCall.Meaning E (srv.dispatch e) s tr u (.ok raw) ∧ ReflTransGen E u t ∧
      response = signIfConfigured hmac srv.signingSecret raw := by
  unfold LdpServer.handleMessage at h
  split at h
  · obtain ⟨_, _, hr⟩ := run_throw.mp h
    cases hr
  · rcases h.of_bind with ⟨raw, u, tr₁, tr₂, hrun, hrest, htr⟩ | ⟨error, _, hr⟩
    · obtain ⟨hu, hnil, hr⟩ := run_pure.mp hrest
      rw [hnil, List.append_nil] at htr
      rw [htr]
      exact ⟨u, raw, hrun, hu, Except.ok.inj hr⟩
    · cases hr

/-- A submission that is answered has stored what the handler returned, and only
others have moved since. -/
theorem submit_among {contract : Option DelegationContract}
    (hb : e.body = .taskSubmit taskId skill input contract)
    (h : Run ServerCall.Meaning E (srv.handleMessage hmac e) s tr t (.ok response)) :
    ∃ output produced,
      response.body = .taskResult taskId output (srv.completedProvenance produced) ∧
      ⟨.handler skill input, output⟩ ∈ tr ∧ ∃ u : ServerState, ReflTransGen E
        { u with tasks := u.tasks.insert taskId (LdpServer.completedRecord taskId skill output) }
        t := by
  obtain ⟨v, raw, hrun, hv, hresponse⟩ := dispatched h
  unfold LdpServer.dispatch at hrun
  rw [hb] at hrun
  unfold LdpServer.handleTaskSubmit LdpServer.resultProvenance runHandler insertTask getSession
    utcNowRfc3339 at hrun
  simp only [call_bind, pure_eq, ask_bind, pure_bind_eq] at hrun
  obtain ⟨_, output, _, tr₁, _, _, hrun₁, htr⟩ := run_ask.mp hrun
  obtain ⟨u, _, u₁, _, _, ⟨_, hu₁⟩, hrun₂, _⟩ := run_ask.mp hrun₁
  obtain ⟨u₂, produced, u₂', _, hu₂, ⟨_, hsame₂⟩, hrun₃, _⟩ := run_ask.mp hrun₂
  obtain ⟨u₃, session, u₃', _, hu₃, ⟨_, hsame₃⟩, hrun₄, _⟩ := run_ask.mp hrun₃
  obtain ⟨hrest, messageId, now, hr⟩ := respond_among hrun₄
  cases hr
  have hkeep₂ : u₂' = u₂ := hsame₂
  have hkeep₃ : u₃' = u₃ := hsame₃
  rw [hkeep₂] at hu₃
  rw [hkeep₃] at hrest
  rw [hu₁] at hu₂
  refine ⟨output, produced, ?_, ?_, u, ((hu₂.trans hu₃).trans hrest).trans hv⟩
  · rw [hresponse, signIfConfigured_body]
    rfl
  · rw [htr]
    exact List.mem_cons_self

/-- A query only reads; if it is answered, then from a record it has found. -/
theorem query_among {progress : Option ℚ} {message : Option String} {r : Except String LdpEnvelope}
    (hb : e.body = .taskUpdate taskId progress message)
    (h : Run ServerCall.Meaning E (srv.handleMessage hmac e) s tr t r) :
    ReflTransGen E s t ∧ ∀ response, r = .ok response → ∃ u record produced,
      ReflTransGen E s u ∧ u.tasks.lookup taskId = some record ∧
      response.body = statusBody srv taskId produced record := by
  have hpassive : ServerGate.AsksPassively (srv.dispatch e) := by
    unfold LdpServer.dispatch
    rw [hb]
    exact ServerGate.handleTaskStatusQuery_asksPassively srv e taskId
  refine ⟨(ServerGate.handleMessage_untouched hmac srv e h (.inl hpassive)).others, ?_⟩
  intro response hr
  subst hr
  obtain ⟨v, raw, hrun, _, hresponse⟩ := dispatched h
  unfold LdpServer.dispatch at hrun
  rw [hb] at hrun
  unfold LdpServer.handleTaskStatusQuery getTask at hrun
  simp only [call_bind] at hrun
  obtain ⟨u, found, _, _, hu, ⟨hfound, _⟩, hrun₁, _⟩ := run_ask.mp hrun
  have hlookup : found = u.tasks.lookup taskId := hfound
  rw [hresponse, signIfConfigured_body]
  cases found with
  | none =>
      obtain ⟨_, _, hr⟩ := run_throw.mp hrun₁
      cases hr
  | some record =>
      obtain ⟨id, skill, state, output, error⟩ := record
      cases state with
      | completed =>
          simp only [LdpServer.resultProvenance, utcNowRfc3339, call_bind, pure_eq, ask_bind,
            pure_bind_eq] at hrun₁
          obtain ⟨_, produced, _, _, _, _, hrun₂, _⟩ := run_ask.mp hrun₁
          obtain ⟨_, messageId, now, hr⟩ := respond_among hrun₂
          cases hr
          exact ⟨u, _, produced, hu, hlookup.symm, rfl⟩
      | _ =>
          obtain ⟨_, messageId, now, hr⟩ := respond_among hrun₁
          cases hr
          exact ⟨u, _, "", hu, hlookup.symm, rfl⟩

/-- A cancellation either never gets to the store, or removes the record. -/
theorem cancel_among {r : Except String LdpEnvelope} (hb : e.body = .taskCancel taskId)
    (h : Run ServerCall.Meaning E (srv.handleMessage hmac e) s tr t r) :
    (ReflTransGen E s t ∧ ∃ error, r = .error error) ∨
      ∃ (u : ServerState) (response : LdpEnvelope), r = .ok response ∧ response.body = .taskFailed
        taskId (LdpError.runtime "CANCELLED" "Task cancelled by client") ∧
        ReflTransGen E { u with tasks := u.tasks.erase taskId } t := by
  cases r with
  | error error =>
      exact .inl ⟨(ServerGate.handleMessage_error_untouched hmac srv e h).others, error, rfl⟩
  | ok response =>
      obtain ⟨v, raw, hrun, hv, hresponse⟩ := dispatched h
      unfold LdpServer.dispatch at hrun
      rw [hb] at hrun
      unfold LdpServer.handleTaskCancel removeTask at hrun
      simp only [call_bind] at hrun
      obtain ⟨u, _, u₁, _, _, ⟨_, hu₁⟩, hrun₁, _⟩ := run_ask.mp hrun
      obtain ⟨hrest, messageId, now, hr⟩ := respond_among hrun₁
      cases hr
      rw [hu₁] at hrest
      refine .inr ⟨u, response, rfl, ?_, hrest.trans hv⟩
      rw [hresponse, signIfConfigured_body]
      rfl

end Among

section Exchanges
variable {hmac : Hmac} {srv : LdpServer} {handles : Handler} {faulty : Prop}
  {others : List String → ServerState → ServerState → Prop} {drawn : List String}
  {e : LdpEnvelope} {s t : ServerState} {taskId skill : String} {input output : Value}

/-- A message without errors in its body is what the server handles. -/
theorem worked {answer : Except String Value} (he : e.body.errors = [])
    (h : Works hmac srv handles others drawn e.toValue s answer t) :
    ∃ tr r, Run ServerCall.Meaning (others drawn) (srv.handleMessage hmac e) s tr t r ∧
      (∀ skill input output, ⟨.handler skill input, output⟩ ∈ tr → handles skill input output) ∧
      answer = r.map LdpEnvelope.toValue := by
  have hwire := LdpEnvelope.fromValue_toValue e (by simp [he])
  cases h with
  | @handled e' tr _ r hread hrun hwork =>
      rw [hwire] at hread
      cases hread
      exact ⟨tr, r, hrun, hwork, rfl⟩
  | invalid _ hread =>
      rw [hwire] at hread
      cases hread

/-- What comes back was handled, and reads as it was written. -/
theorem exchanged {back : LdpEnvelope} (he : e.body.errors = [])
    (h : Exchange (Works hmac srv handles others) faulty drawn e s (.ok back) t) :
    ∃ tr response, Run ServerCall.Meaning (others drawn) (srv.handleMessage hmac e) s tr t
        (.ok response) ∧
      (∀ skill input output, ⟨.handler skill input, output⟩ ∈ tr → handles skill input output) ∧
      LdpEnvelope.fromValue response.toValue = some back := by
  cases h with
  | answered hserved hread =>
      obtain ⟨tr, r, hrun, hwork, hanswer⟩ := worked he hserved
      cases r with
      | error error => cases hanswer
      | ok response =>
          cases hanswer
          exact ⟨tr, response, hrun, hwork, hread⟩

variable (hothers : ∀ d s t, others d s t → Apart d s t) (hid : taskId ∈ drawn)
include hothers hid

theorem others_keep (h : ReflTransGen (others drawn) s t) :
    t.tasks.lookup taskId = s.tasks.lookup taskId :=
  apart_lookup hothers hid (Respecting.of_others h)

/-- A submission that is answered leaves the record of what the handler returned. -/
theorem exchange_submit {contract : Option DelegationContract} {back : LdpEnvelope}
    (hb : e.body = .taskSubmit taskId skill input contract)
    (h : Exchange (Works hmac srv handles others) faulty drawn e s (.ok back) t) :
    ∃ output, handles skill input output ∧ t.tasks.lookup taskId =
      some (LdpServer.completedRecord taskId skill output) := by
  obtain ⟨tr, response, hrun, hwork, _⟩ :=
    exchanged (by rw [hb]; rfl) h
  obtain ⟨output, produced, _, hhandled, u, hmoved⟩ := submit_among hb hrun
  refine ⟨output, hwork _ _ _ hhandled, ?_⟩
  rw [others_keep hothers hid hmoved]
  exact AList.lookup_insert _

/-- A query leaves the record alone; it is answered with the stored output, and not
at all if there is none. -/
theorem exchange_query {progress : Option ℚ} {message : Option String}
    {answer : Except String LdpEnvelope} (hb : e.body = .taskUpdate taskId progress message)
    (h : Exchange (Works hmac srv handles others) faulty drawn e s answer t) :
    t.tasks.lookup taskId = s.tasks.lookup taskId ∧ ∀ back, answer = .ok back →
      ∃ record, s.tasks.lookup taskId = some record ∧
        ∀ skill output, record = LdpServer.completedRecord taskId skill output →
          ∃ produced, back.body = .taskResult taskId output (srv.completedProvenance produced) := by
  have he : e.body.errors = [] := by
    rw [hb]
    rfl
  constructor
  · refine h.relates (G := fun s t => t.tasks.lookup taskId = s.tasks.lookup taskId)
      (fun _ => rfl) ?_
    intro s answer t hserved
    obtain ⟨tr, r, hrun, _, _⟩ := worked he hserved
    exact others_keep hothers hid (query_among hb hrun).1
  · intro back hanswer
    subst hanswer
    obtain ⟨tr, response, hrun, _, hread⟩ := exchanged he h
    obtain ⟨u, record, produced, hu, hlookup, hbody⟩ := (query_among hb hrun).2 response rfl
    rw [others_keep hothers hid hu] at hlookup
    refine ⟨record, hlookup, ?_⟩
    intro skill output hrecord
    subst hrecord
    have hresult : response.body =
        .taskResult taskId output (srv.completedProvenance produced) := hbody
    refine ⟨produced, ?_⟩
    rw [Handshake.read_back hread (by simp [hresult, LdpMessageBody.errors]), hresult]

/-- A cancellation that is answered leaves no record; one that is not may have left
it as it was. -/
theorem exchange_cancel {answer : Except String LdpEnvelope} (hb : e.body = .taskCancel taskId)
    (h : Exchange (Works hmac srv handles others) faulty drawn e s answer t) :
    (t.tasks.lookup taskId = s.tasks.lookup taskId ∨ t.tasks.lookup taskId = none) ∧
      ∀ back, answer = .ok back → t.tasks.lookup taskId = none := by
  have he : e.body.errors = [] := by
    rw [hb]
    rfl
  have hremoved : ∀ u t : ServerState, ReflTransGen (others drawn)
      { u with tasks := u.tasks.erase taskId } t → t.tasks.lookup taskId = none := by
    intro u t hmoved
    rw [others_keep hothers hid hmoved]
    exact AList.lookup_erase _ _
  constructor
  · refine h.relates (G := fun s t => t.tasks.lookup taskId = s.tasks.lookup taskId ∨
      t.tasks.lookup taskId = none) (fun _ => .inl rfl) ?_
    intro s answer t hserved
    obtain ⟨tr, r, hrun, _, _⟩ := worked he hserved
    rcases cancel_among hb hrun with ⟨hmoved, _⟩ | ⟨u, response, _, _, hmoved⟩
    · exact .inl (others_keep hothers hid hmoved)
    · exact .inr (hremoved u t hmoved)
  · intro back hanswer
    subst hanswer
    obtain ⟨tr, response, hrun, _, _⟩ := exchanged he h
    rcases cancel_among hb hrun with ⟨_, error, hr⟩ | ⟨u, _, _, _, hmoved⟩
    · cases hr
    · exact hremoved u t hmoved

end Exchanges
end LdpProtocol.LinkedTasks
