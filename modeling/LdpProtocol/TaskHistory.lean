import LdpProtocol.ConcurrentCalls
import LdpProtocol.ServerGate
import LdpProtocol.ServerRuns

/-!
# The task store among concurrent messages

Each message is a call of its own; the handler call, the insert, the lookup of
the session and the removal are separate steps, and any number of messages may
be under way. The store is what its history says: a task has the record of the
last insert, unless a removal came after it. A record is traced back to the
submission that inserted it and to what the handler returned there.
-/
namespace LdpProtocol.TaskHistory
open InteractivePrograms InteractivePrograms.Program InterferedRuns ConcurrentCalls Relation
open JsonValues PayloadModes MessageTypes EnvelopeSigning ServerHandlers ServerRuns

abbrev ServerConfig :=
  Config LdpEnvelope ServerCall ServerCall.Answer String LdpEnvelope ServerState

abbrev ServerEntry := Entry ServerCall ServerCall.Answer ServerState

/-- The configurations that messages lead to, from empty maps. -/
abbrev Serving (hmac : Hmac) (srv : LdpServer) (k : ServerConfig) : Prop :=
  Moves ServerCall.Meaning (srv.handleMessage hmac) (idle .empty) k

/-- Get completed task count. -/
def completedTasks (s : ServerState) : ℕ :=
  (s.tasks.entries.filter fun entry => entry.2.state = .completed).length

/-- The questions that write the record of a task. -/
def Writes (taskId : String) : ServerCall → Prop
  | .insertTask id _ => id = taskId
  | .removeTask id => id = taskId
  | _ => False

/-- The record that a question leaves for the task, if it writes it. -/
def recordWritten (taskId : String) : ServerCall → Option (Option TaskRecord)
  | .insertTask id record => if id = taskId then some (some record) else none
  | .removeTask id => if id = taskId then some none else none
  | _ => none

theorem recordWritten_isSome {taskId : String} {q : ServerCall} :
    (recordWritten taskId q).isSome = true ↔ Writes taskId q := by
  cases q with
  | insertTask id record => by_cases hid : id = taskId <;> simp [recordWritten, Writes, hid]
  | removeTask id => by_cases hid : id = taskId <;> simp [recordWritten, Writes, hid]
  | _ => simp [recordWritten, Writes]

theorem writing_recordWritten (taskId : String) : (Writing (recordWritten taskId) :
    ServerEntry → Prop) = fun x => Writes taskId x.event.1 :=
  funext fun _ => propext recordWritten_isSome

theorem recordWritten_eq_some {taskId : String} {record : TaskRecord} {q : ServerCall} :
    recordWritten taskId q = some (some record) ↔ q = .insertTask taskId record := by
  cases q with
  | insertTask id inserted => by_cases hid : id = taskId <;> simp [recordWritten, hid]
  | removeTask id => by_cases hid : id = taskId <;> simp [recordWritten, hid]
  | _ => simp [recordWritten]

theorem lookup_effect (taskId : String) (q : ServerCall) (s : ServerState) :
    (q.effect s).tasks.lookup taskId =
      (recordWritten taskId q).getD (s.tasks.lookup taskId) := by
  cases q with
  | insertTask id record =>
      by_cases hid : id = taskId
      · simp [ServerCall.effect, recordWritten, hid]
      · simp [ServerCall.effect, recordWritten, hid, AList.lookup_insert_ne (Ne.symm hid)]
  | removeTask id =>
      by_cases hid : id = taskId
      · simp [ServerCall.effect, recordWritten, hid]
      · simp [ServerCall.effect, recordWritten, hid, AList.lookup_erase_ne (Ne.symm hid)]
  | _ => rfl

theorem lookup_effect_of_not_writes {taskId : String} {q : ServerCall}
    (h : ¬ Writes taskId q) (s : ServerState) :
    (q.effect s).tasks.lookup taskId = s.tasks.lookup taskId := by
  have hnone : recordWritten taskId q = none := by
    simpa using (not_congr recordWritten_isSome).mpr h
  rw [lookup_effect, hnone, Option.getD_none]

/-- The last write of a task's record. -/
abbrev LastWrite (taskId : String) : List ServerEntry → ServerEntry → Prop :=
  Latest (fun x => Writes taskId x.event.1) (fun x => Writes taskId x.event.1)

/-- The store holds the record of the last insert. -/
theorem lookup_iff {hmac : Hmac} {srv : LdpServer} {k : ServerConfig} (h : Serving hmac srv k)
    (taskId : String) (record : TaskRecord) :
    k.state.tasks.lookup taskId = some record ↔
      ∃ x, LastWrite taskId k.log x ∧ x.event.1 = .insertTask taskId record := by
  have hcell : ∀ q s a t, ServerCall.Meaning q s a t →
      t.tasks.lookup taskId = (recordWritten taskId q).getD (s.tasks.lookup taskId) := by
    intro q s a t hm
    rw [hm.2]
    exact lookup_effect taskId q s
  have hstored := Moves.cell hcell h
  rw [writing_recordWritten] at hstored
  rcases hstored with ⟨x, hx, hwritten⟩ | ⟨hnone, hstart⟩
  · constructor
    · intro hl
      rw [hl] at hwritten
      exact ⟨x, hx, recordWritten_eq_some.mp hwritten⟩
    · intro hy
      obtain ⟨y, hy, hinsert⟩ := hy
      have hsame := hx.unique (fun _ hz => hz) hy
      rw [hsame, recordWritten_eq_some.mpr hinsert] at hwritten
      exact (Option.some.inj hwritten).symm
  · constructor
    · intro hl
      rw [hstart] at hl
      cases hl
    · intro hy
      obtain ⟨y, hy, hinsert⟩ := hy
      have hwritten := hnone y hy.mem
      rw [recordWritten_eq_some.mpr hinsert] at hwritten
      cases hwritten

section Paths
variable {srv : LdpServer} {e : LdpEnvelope} {hmac : Hmac} {tr : Trace}
  {p : ServerProgram LdpEnvelope} {r : Except String LdpEnvelope}

/-- A call that passes the gate follows the dispatch; the response is signed in
the end. -/
theorem handleMessage_along (h : Along (srv.handleMessage hmac e) tr p) :
    (∃ error, srv.signatureError hmac e = some error ∧ tr = [] ∧ p = .throw error) ∨
    (srv.signatureError hmac e = none ∧ ∃ p', Along (srv.dispatch e) tr p' ∧
      p = p' >>= fun response => .pure (signIfConfigured hmac srv.signingSecret response)) := by
  unfold LdpServer.handleMessage at h
  cases hsig : srv.signatureError hmac e with
  | some error =>
      rw [hsig] at h
      have hthrow := along_throw.mp h
      exact .inl ⟨error, rfl, hthrow.1, hthrow.2⟩
  | none =>
      rw [hsig] at h
      refine .inr ⟨rfl, ?_⟩
      rcases h.of_bind with ⟨p', hp', hp⟩ | ⟨response, tr₁, tr₂, h₁, h₂, htr⟩
      · exact ⟨p', hp', hp⟩
      · have hend := along_pure.mp h₂
        rw [hend.1, List.append_nil] at htr
        exact ⟨.pure response, htr ▸ h₁, hend.2⟩

/-- A finished call that passes the gate has finished its dispatch. -/
theorem handleMessage_done (hsig : srv.signatureError hmac e = none)
    (h : Along (srv.handleMessage hmac e) tr (done r)) :
    ∃ outcome, Along (srv.dispatch e) tr (done outcome) ∧
      r = outcome.map (signIfConfigured hmac srv.signingSecret) := by
  rcases handleMessage_along h with ⟨error, hrefused, _⟩ | ⟨_, p', hp', hp⟩
  · rw [hsig] at hrefused
    cases hrefused
  · cases p' with
    | pure response =>
        refine ⟨.ok response, hp', ?_⟩
        cases r <;> cases hp
        rfl
    | throw error =>
        refine ⟨.error error, hp', ?_⟩
        cases r <;> cases hp
        rfl
    | ask q next => cases r <;> cases hp

/-- What the handler returned during a call. -/
def returned (tr : Trace) : List Value :=
  tr.filterMap fun ev => match ev with
    | ⟨.handler _ _, output⟩ => some output
    | _ => none

theorem returned_of_passive (h : ∀ ev ∈ tr, ev.1.Passive) : returned tr = [] := by
  apply List.filterMap_eq_nil_iff.mpr
  intro ev hev
  have hp := h ev hev
  obtain ⟨q, a⟩ := ev
  cases q <;> first | rfl | exact hp.elim

/-- A submission runs the handler, then inserts what it returned, and then only
reads. -/
theorem handleTaskSubmit_along {taskId skill : String} {input : Value}
    (h : Along (srv.handleTaskSubmit e taskId skill input) tr p) :
    tr = [] ∨ ∃ output : Value, tr = [⟨.handler skill input, output⟩] ∨
      ∃ rest : Trace, tr = ⟨.handler skill input, output⟩ ::
        ⟨.insertTask taskId (LdpServer.completedRecord taskId skill output), ()⟩ :: rest ∧
        ∀ ev ∈ rest, ev.1.Passive := by
  unfold LdpServer.handleTaskSubmit runHandler insertTask at h
  simp only [call_bind] at h
  rcases along_ask.mp h with ⟨htr, _⟩ | ⟨output, tr₁, htr, h₁⟩
  · exact .inl htr
  · refine .inr ⟨output, ?_⟩
    rcases along_ask.mp h₁ with ⟨htr₁, _⟩ | ⟨_, rest, htr₁, h₂⟩
    · exact .inl (by rw [htr, htr₁])
    · refine .inr ⟨rest, by rw [htr, htr₁], h₂.uses ?_⟩
      apply (ServerGate.resultProvenance_asksPassively srv).bind
      intro provenance
      refine ⟨trivial, ?_⟩
      intro session _
      exact ServerGate.respond_asksPassively ..

/-- Only submissions and cancellations write a task's record, each its own. -/
theorem dispatch_writes (h : Along (srv.dispatch e) tr p) {taskId : String}
    {ev : Event ServerCall ServerCall.Answer} (hev : ev ∈ tr) (hw : Writes taskId ev.1) :
    (∃ skill input contract output, e.body = .taskSubmit taskId skill input contract ∧
      ev.1 = .insertTask taskId (LdpServer.completedRecord taskId skill output) ∧
      returned tr = [output]) ∨
    (e.body = .taskCancel taskId ∧ ev.1 = .removeTask taskId) := by
  have hasks := h.uses ServerGate.dispatch_asks ev hev
  obtain ⟨q, a⟩ := ev
  cases q with
  | insertTask id record =>
      have hid : id = taskId := hw
      subst hid
      obtain ⟨skill, input, contract, hb⟩ := hasks
      unfold LdpServer.dispatch at h
      rw [hb] at h
      rcases handleTaskSubmit_along h with htr | ⟨output, htr | ⟨rest, htr, hrest⟩⟩
      · rw [htr] at hev
        cases hev
      · rw [htr, List.mem_singleton] at hev
        cases hev
      · have hreturned : returned tr = [output] := by
          have hnone : returned rest = [] := returned_of_passive hrest
          rw [htr]
          exact congrArg (List.cons output) hnone
        rw [htr] at hev
        rcases List.mem_cons.mp hev with hev | hev
        · cases hev
        · rcases List.mem_cons.mp hev with hev | hev
          · cases hev
            exact .inl ⟨skill, input, contract, output, hb, rfl, hreturned⟩
          · exact (hrest _ hev).elim
  | removeTask id =>
      have hid : id = taskId := hw
      subst hid
      exact .inr ⟨hasks, rfl⟩
  | _ => exact hw.elim

theorem respond_done {body : LdpMessageBody} {payloadMode : PayloadMode}
    (h : Along (srv.respond e body payloadMode) tr (done r)) :
    ∃ messageId now, r = .ok (srv.response e messageId now body payloadMode) := by
  unfold LdpServer.respond newV4 utcNowRfc3339 at h
  simp only [call_bind, pure_eq, along_ask_done, along_pure_done] at h
  obtain ⟨messageId, _, _, now, _, _, _, hr⟩ := h
  exact ⟨messageId, now, hr⟩

/-- A finished submission has run its handler, stored the result, and looked for the
session it answers in. -/
theorem handleTaskSubmit_path {taskId skill : String} {input : Value}
    (h : Along (srv.handleTaskSubmit e taskId skill input) tr (done r)) :
    ∃ output produced session rest, tr = ⟨.handler skill input, output⟩ ::
        ⟨.insertTask taskId (LdpServer.completedRecord taskId skill output), ()⟩ ::
        ⟨.utcNowRfc3339, produced⟩ :: ⟨.getSession e.sessionId, session⟩ :: rest ∧
      Along (srv.respond e (.taskResult taskId output (srv.completedProvenance produced))
        (LdpServer.sessionMode session)) rest (done r) := by
  unfold LdpServer.handleTaskSubmit LdpServer.resultProvenance runHandler insertTask getSession
    utcNowRfc3339 at h
  simp only [call_bind, pure_eq, ask_bind, pure_bind_eq, along_ask_done] at h
  obtain ⟨output, _, htr, _, _, htr₁, produced, _, htr₂, session, rest, htr₃, hrest⟩ := h
  exact ⟨output, produced, session, rest, by rw [htr, htr₁, htr₂, htr₃], hrest⟩

/-- A finished submission answers with what its handler returned. -/
theorem handleTaskSubmit_done {taskId skill : String} {input : Value}
    (h : Along (srv.handleTaskSubmit e taskId skill input) tr (done r)) :
    ∃ output response provenance, returned tr = [output] ∧
      ⟨.insertTask taskId (LdpServer.completedRecord taskId skill output), ()⟩ ∈ tr ∧
      r = .ok response ∧ response.body = .taskResult taskId output provenance := by
  obtain ⟨output, produced, session, rest, htr, hrest⟩ := handleTaskSubmit_path h
  obtain ⟨messageId, now, hr⟩ := respond_done hrest
  have hnone : returned rest = [] := returned_of_passive fun ev hev =>
    hrest.uses (ServerGate.respond_asksPassively ..) ev hev
  refine ⟨output, _, srv.completedProvenance produced, ?_, ?_, hr, rfl⟩
  · rw [htr]
    exact congrArg (List.cons output) hnone
  · rw [htr]
    exact List.mem_cons_of_mem _ List.mem_cons_self

/-- A finished query answers what it found. -/
theorem handleTaskStatusQuery_done {taskId : String}
    (h : Along (srv.handleTaskStatusQuery e taskId) tr (done r)) :
    ∃ found rest, tr = ⟨.getTask taskId, found⟩ :: rest ∧
      ((found = none ∧ r = .error ("Unknown task: " ++ taskId)) ∨
        ∃ record produced messageId now, found = some record ∧ r =
          .ok (srv.response e messageId now (statusBody srv taskId produced record) .text)) := by
  unfold LdpServer.handleTaskStatusQuery getTask at h
  simp only [call_bind, along_ask_done] at h
  obtain ⟨found, rest, htr, hrest⟩ := h
  refine ⟨found, rest, htr, ?_⟩
  cases found with
  | none =>
      simp only [along_throw_done] at hrest
      exact .inl ⟨rfl, hrest.2⟩
  | some record =>
      refine .inr ?_
      obtain ⟨id, skill, state, output, error⟩ := record
      cases state with
      | completed =>
          simp only [LdpServer.resultProvenance, utcNowRfc3339, call_bind, pure_eq, ask_bind,
            pure_bind_eq, along_ask_done] at hrest
          obtain ⟨produced, _, _, hrest⟩ := hrest
          obtain ⟨messageId, now, hr⟩ := respond_done hrest
          exact ⟨_, produced, messageId, now, rfl, hr⟩
      | _ =>
          obtain ⟨messageId, now, hr⟩ := respond_done hrest
          exact ⟨_, "", messageId, now, rfl, hr⟩

end Paths

section Runs
variable {hmac : Hmac} {srv : LdpServer} {k : ServerConfig}

/-- Every write of a task's record was made by a submission, of what the handler
returned to it, or by a cancellation. -/
theorem write_origin (h : Serving hmac srv k) {x : ServerEntry} (hx : x ∈ k.log)
    {taskId : String} (hw : Writes taskId x.event.1) :
    ∃ e p, k.calls[x.caller]? = some (e, p) ∧ srv.signatureError hmac e = none ∧
      ((∃ skill input contract output, e.body = .taskSubmit taskId skill input contract ∧
        x.event.1 = .insertTask taskId (LdpServer.completedRecord taskId skill output) ∧
        returned (traceOf x.caller k.log) = [output]) ∨
      (e.body = .taskCancel taskId ∧ x.event.1 = .removeTask taskId)) := by
  have hfollows := h.follows
  obtain ⟨call, hcall⟩ : ∃ call, k.calls[x.caller]? = some call :=
    ⟨_, List.getElem?_eq_getElem (hfollows.caller x hx)⟩
  obtain ⟨e, p⟩ := call
  have hmem : x.event ∈ traceOf x.caller k.log := mem_traceOf.mpr ⟨x, hx, rfl, rfl⟩
  refine ⟨e, p, hcall, ?_⟩
  rcases handleMessage_along (hfollows.along _ _ _ hcall) with ⟨_, _, htr, _⟩ |
    ⟨hsig, p', hpath, _⟩
  · rw [htr] at hmem
    cases hmem
  · exact ⟨hsig, dispatch_writes hpath hmem hw⟩

/-- The last write of the task's record in the log was made by a submission to
which the handler returned `output`, and nothing else. -/
def Stored (k : ServerConfig) (taskId : String) (log : List ServerEntry) (output : Value) : Prop :=
  ∃ x e p skill input contract record, LastWrite taskId log x ∧
    x.event.1 = .insertTask taskId record ∧ k.calls[x.caller]? = some (e, p) ∧
    e.body = .taskSubmit taskId skill input contract ∧
    returned (traceOf x.caller k.log) = [output]

theorem Stored.unique {taskId : String} {log : List ServerEntry} {output output' : Value}
    (h : Stored k taskId log output) (h' : Stored k taskId log output') : output = output' := by
  obtain ⟨x, _, _, _, _, _, _, hlast, _, _, _, hreturned⟩ := h
  obtain ⟨x', _, _, _, _, _, _, hlast', _, _, _, hreturned'⟩ := h'
  have hsame : x = x' := hlast.unique (fun _ => id) hlast'
  rw [← hsame, hreturned] at hreturned'
  exact List.singleton_inj.mp hreturned'

/-- At every moment of a run the store has exactly what was stored last. -/
theorem lookup_stored (h : Serving hmac srv k) {k₁ : ServerConfig} (h₁ : Serving hmac srv k₁)
    (hto : Moves ServerCall.Meaning (srv.handleMessage hmac) k₁ k) (taskId : String) :
    (∃ output skill, Stored k taskId k₁.log output ∧ k₁.state.tasks.lookup taskId =
        some (LdpServer.completedRecord taskId skill output)) ∨
      ((∀ output, ¬ Stored k taskId k₁.log output) ∧ k₁.state.tasks.lookup taskId = none) := by
  obtain ⟨more, hmore⟩ := hto.persist.1
  cases hl : k₁.state.tasks.lookup taskId with
  | none =>
      refine .inr ⟨?_, rfl⟩
      intro output hstored
      obtain ⟨x, _, _, _, _, _, record, hlast, hinsert, _⟩ := hstored
      rw [(lookup_iff h₁ taskId record).mpr ⟨x, hlast, hinsert⟩] at hl
      cases hl
  | some record =>
      obtain ⟨x, hlast, hinsert⟩ := (lookup_iff h₁ taskId record).mp hl
      have hmem : x ∈ k.log := by
        rw [hmore]
        exact List.mem_append_left _ hlast.mem
      have hwrites : Writes taskId x.event.1 := by
        rw [hinsert]
        rfl
      obtain ⟨e, p, hcall, _, ⟨skill, input, contract, output, hb, hrecord, hreturned⟩ |
        ⟨_, hremove⟩⟩ := write_origin h hmem hwrites
      · rw [hrecord] at hinsert
        cases hinsert
        exact .inl ⟨output, skill, ⟨x, e, p, skill, input, contract, _, hlast, hrecord, hcall, hb,
          hreturned⟩, rfl⟩
      · rw [hremove] at hinsert
        cases hinsert

/-- The moment at which a finished query looked into the store. -/
theorem query_moment (h : Serving hmac srv k) {j : ℕ} {e : LdpEnvelope}
    {r : Except String LdpEnvelope} (hcall : k.calls[j]? = some (e, done r))
    (hsig : srv.signatureError hmac e = none) {taskId : String} {progress : Option ℚ}
    {message : Option String} (hb : e.body = .taskUpdate taskId progress message) :
    ∃ earlier y later k₁, k.log = earlier ++ y :: later ∧ y.caller = j ∧
      y.event.1 = .getTask taskId ∧ Serving hmac srv k₁ ∧ k₁.log = earlier ∧
      Moves ServerCall.Meaning (srv.handleMessage hmac) k₁ k ∧
      ((k₁.state.tasks.lookup taskId = none ∧ r = .error ("Unknown task: " ++ taskId)) ∨
        ∃ record produced response, k₁.state.tasks.lookup taskId = some record ∧
          r = .ok response ∧ response.body = statusBody srv taskId produced record) := by
  obtain ⟨outcome, hpath, hr⟩ := handleMessage_done hsig (h.follows.along _ _ _ hcall)
  unfold LdpServer.dispatch at hpath
  rw [hb] at hpath
  obtain ⟨found, rest, htr, hanswer⟩ := handleTaskStatusQuery_done hpath
  have hmem : (⟨.getTask taskId, found⟩ : Event ServerCall ServerCall.Answer) ∈
      traceOf j k.log := by
    rw [htr]
    exact List.mem_cons_self
  obtain ⟨y, hy, hcaller, hevent⟩ := mem_traceOf.mp hmem
  obtain ⟨earlier, later, hlog⟩ := List.append_of_mem hy
  obtain ⟨k₁, h₁, hto, hlog₁, hstate⟩ := h.split hlog
  obtain ⟨t, hmeant⟩ := h.meant y hy
  rw [hevent, ← hstate] at hmeant
  have hfound : found = k₁.state.tasks.lookup taskId := hmeant.1
  refine ⟨earlier, y, later, k₁, hlog, hcaller, by rw [hevent], h₁, hlog₁, hto, ?_⟩
  rw [← hfound, hr]
  rcases hanswer with ⟨hnone, hout⟩ | ⟨record, produced, messageId, now, hsome, hout⟩
  · refine .inl ⟨hnone, ?_⟩
    rw [hout]
    rfl
  · refine .inr ⟨record, produced, _, hsome, by rw [hout]; rfl, ?_⟩
    rw [signIfConfigured_body]
    rfl

/-- Every record counts as completed. -/
theorem completedTasks_eq (h : Serving hmac srv k) :
    completedTasks k.state = {taskId | (k.state.tasks.lookup taskId).isSome = true}.ncard := by
  have hall : (k.state.tasks.entries.filter fun entry => entry.2.state = .completed) =
      k.state.tasks.entries := by
    rw [List.filter_eq_self]
    intro entry hentry
    have hl : k.state.tasks.lookup entry.1 = some entry.2 := AList.mem_lookup_iff.mpr hentry
    rcases lookup_stored h h .refl entry.1 with ⟨output, skill, _, hrecord⟩ | ⟨_, hnone⟩
    · rw [hl] at hrecord
      rw [Option.some.inj hrecord]
      rfl
    · rw [hl] at hnone
      cases hnone
  have hset : {taskId | (k.state.tasks.lookup taskId).isSome = true} =
      (k.state.tasks.keys.toFinset : Set String) := by
    ext taskId
    rw [Set.mem_ofPred_eq, AList.lookup_isSome, List.coe_toFinset]
    rfl
  rw [completedTasks, hall, hset, Set.ncard_coe_finset,
    List.toFinset_card_of_nodup k.state.tasks.keys_nodup]
  exact (List.length_map _).symm

/-- A record is kept for the tasks that a submission has stored. -/
theorem kept_iff_stored (h : Serving hmac srv k) (taskId : String) :
    (k.state.tasks.lookup taskId).isSome = true ↔ ∃ output, Stored k taskId k.log output := by
  rcases lookup_stored h h .refl taskId with ⟨output, skill, hstored, hl⟩ | ⟨hnone, hl⟩
  · rw [hl]
    exact ⟨fun _ => ⟨output, hstored⟩, fun _ => rfl⟩
  · rw [hl]
    constructor
    · intro hsome
      cases hsome
    · intro hstored
      obtain ⟨output, hstored⟩ := hstored
      exact (hnone output hstored).elim

/-- A status query is answered from the record as it stood at the query's reading. -/
theorem query_answered (h : Serving hmac srv k) (hns : srv.signingSecret = none) {j : ℕ}
    {e : LdpEnvelope} {r : Except String LdpEnvelope} {taskId : String} {progress : Option ℚ}
    {message : Option String} (hcall : k.calls[j]? = some (e, done r))
    (hb : e.body = .taskUpdate taskId progress message) :
    ∃ earlier y later, k.log = earlier ++ y :: later ∧ y.caller = j ∧
      y.event.1 = .getTask taskId ∧
      ((∃ output response provenance, Stored k taskId earlier output ∧ r = .ok response ∧
          response.body = .taskResult taskId output provenance) ∨
        ((∀ output, ¬ Stored k taskId earlier output) ∧
          r = .error ("Unknown task: " ++ taskId))) := by
  have hsig : srv.signatureError hmac e = none := by
    unfold LdpServer.signatureError
    rw [hns]
  obtain ⟨earlier, y, later, k₁, hlog, hcaller, hevent, h₁, hlog₁, hto, hanswer⟩ :=
    query_moment h hcall hsig hb
  refine ⟨earlier, y, later, hlog, hcaller, hevent, ?_⟩
  rw [← hlog₁]
  rcases lookup_stored h h₁ hto taskId with ⟨output, skill, hstored, hl⟩ | ⟨hnone, hl⟩
  · rcases hanswer with ⟨hmissing, _⟩ | ⟨record, produced, response, hfound, hr, hbody⟩
    · rw [hl] at hmissing
      cases hmissing
    · rw [hl] at hfound
      cases hfound
      exact .inl ⟨output, response, srv.completedProvenance produced, hstored, hr, hbody⟩
  · rcases hanswer with ⟨_, hr⟩ | ⟨record, produced, response, hfound, _⟩
    · exact .inr ⟨hnone, hr⟩
    · rw [hl] at hfound
      cases hfound

/-- A record changes only in a step of a submission or a cancellation of its task. -/
theorem change_origin (h : Serving hmac srv k) {k' : ServerConfig} {taskId : String}
    (hmove : Move ServerCall.Meaning (srv.handleMessage hmac) k k')
    (hchange : k'.state.tasks.lookup taskId ≠ k.state.tasks.lookup taskId) :
    ∃ x e p, k'.log = k.log ++ [x] ∧ k'.calls[x.caller]? = some (e, p) ∧
      ((∃ skill input contract, e.body = .taskSubmit taskId skill input contract) ∨
        e.body = .taskCancel taskId) := by
  have hserving' : Serving hmac srv k' := h.tail hmove
  cases hmove with
  | start c => exact (hchange rfl).elim
  | @act i c q next a t hi hm =>
      have hw : Writes taskId q := by
        by_contra hnot
        apply hchange
        rw [hm.2]
        exact lookup_effect_of_not_writes hnot _
      have hmem : (⟨i, k.state, ⟨q, a⟩⟩ : ServerEntry) ∈ k.log ++ [⟨i, k.state, ⟨q, a⟩⟩] := by
        simp
      obtain ⟨e, p, hcall, _, hkind⟩ := write_origin hserving' hmem hw
      refine ⟨_, e, p, rfl, hcall, ?_⟩
      rcases hkind with ⟨skill, input, contract, _, hb, _⟩ | ⟨hb, _⟩
      · exact .inl ⟨skill, input, contract, hb⟩
      · exact .inr hb

/-- The store, the answers to queries and the count are what the history of
inserts and removals says, whatever the messages do to each other: a record is
held exactly while the last write was an insert, a query answers what the
handler returned to the submission that wrote last before it looked, and no
message changes the record of a task it is not about. -/
theorem task_store_history (hmac : Hmac) (srv : LdpServer) (k : ServerConfig)
    (h : Serving hmac srv k) (hns : srv.signingSecret = none) (taskId : String) :
    ((k.state.tasks.lookup taskId).isSome = true ↔ ∃ output, Stored k taskId k.log output) ∧
    (∀ log output output', Stored k taskId log output → Stored k taskId log output' →
      output = output') ∧
    (∀ (j : ℕ) (e : LdpEnvelope) (r : Except String LdpEnvelope) (progress : Option ℚ)
      (message : Option String), k.calls[j]? = some (e, done r) →
      e.body = .taskUpdate taskId progress message →
      ∃ earlier y later, k.log = earlier ++ y :: later ∧ y.caller = j ∧
        y.event.1 = .getTask taskId ∧
        ((∃ output response provenance, Stored k taskId earlier output ∧ r = .ok response ∧
            response.body = .taskResult taskId output provenance) ∨
          ((∀ output, ¬ Stored k taskId earlier output) ∧
            r = .error ("Unknown task: " ++ taskId)))) ∧
    (∀ k', Move ServerCall.Meaning (srv.handleMessage hmac) k k' →
      k'.state.tasks.lookup taskId ≠ k.state.tasks.lookup taskId →
      ∃ x e p, k'.log = k.log ++ [x] ∧ k'.calls[x.caller]? = some (e, p) ∧
        ((∃ skill input contract, e.body = .taskSubmit taskId skill input contract) ∨
          e.body = .taskCancel taskId)) ∧
    completedTasks k.state = {id | (k.state.tasks.lookup id).isSome = true}.ncard := by
  refine ⟨kept_iff_stored h taskId, fun _ _ _ => Stored.unique, ?_, ?_, completedTasks_eq h⟩
  · intro j e r progress message hcall hb
    exact query_answered h hns hcall hb
  · intro k' hmove hchange
    exact change_origin h hmove hchange

/-- A message handled by the echo server before any other moves, and what it asks. -/
theorem serving_echo_traced (hmac : Hmac) (srv : LdpServer) (h : Serving hmac srv k)
    (e : LdpEnvelope) :
    ∃ log, Serving hmac srv ⟨log, (Program.exec ServerCall.echo (srv.handleMessage hmac e)
        k.state).2.1, k.calls ++ [(e, done (Program.exec ServerCall.echo
        (srv.handleMessage hmac e) k.state).2.2)]⟩ ∧
      traceOf k.calls.length log = (Program.exec ServerCall.echo (srv.handleMessage hmac e)
        k.state).1 := by
  obtain ⟨steps, hmoves, hcaller, hevents⟩ := Moves.call k (c := e)
    (exec_run ServerCall.echo ServerCall.echo_meaning (srv.handleMessage hmac e) k.state)
  refine ⟨k.log ++ steps, h.trans hmoves, ?_⟩
  have hnone : traceOf k.calls.length k.log = [] := by
    rw [List.eq_nil_iff_forall_not_mem]
    intro ev hev
    obtain ⟨x, hx, hcalled, _⟩ := mem_traceOf.mp hev
    have hlt := h.follows.caller x hx
    omega
  rw [traceOf_append, hnone, List.nil_append, traceOf_of_callers hcaller, if_pos rfl, hevents]

theorem serving_echo (hmac : Hmac) (srv : LdpServer) (h : Serving hmac srv k) (e : LdpEnvelope) :
    ∃ log, Serving hmac srv ⟨log, (Program.exec ServerCall.echo (srv.handleMessage hmac e)
        k.state).2.1, k.calls ++ [(e, done (Program.exec ServerCall.echo
        (srv.handleMessage hmac e) k.state).2.2)]⟩ := by
  obtain ⟨log, hserving, _⟩ := serving_echo_traced hmac srv h e
  exact ⟨log, hserving⟩

end Runs

def echoSubmission : LdpEnvelope :=
  LdpEnvelope.new "m1" "t0" "s1" "ldp:a" "ldp:b" (.taskSubmit "t1" "echo" (.string "x") none) .text

theorem task_store_history_echoSubmission :
    ∃ k output, Serving submissionMac (LdpServer.echoServer "ldp:b" "B") k ∧
      Stored k "t1" k.log output := by
  obtain ⟨log, h⟩ := serving_echo submissionMac (LdpServer.echoServer "ldp:b" "B") .refl
    echoSubmission
  obtain ⟨output, hstored⟩ := (task_store_history _ _ _ h rfl "t1").1.mp rfl
  exact ⟨_, output, h, hstored⟩

/-- A query of its task. -/
def echoQuery : LdpEnvelope :=
  LdpEnvelope.new "m2" "t0" "s1" "ldp:a" "ldp:b" (.taskUpdate "t1" none none) .text

/-- The query comes when the record is stored, and is answered before the submission. -/
def overlapped : ServerConfig :=
  [0, 0, 1, 0, 1, 1, 1, 0, 0, 0].foldl (turn ServerCall.echo)
    ⟨[], .empty, [echoSubmission, echoQuery].map fun e =>
      (e, (LdpServer.echoServer "ldp:b" "B").handleMessage submissionMac e)⟩

theorem serving_overlapped : Serving submissionMac (LdpServer.echoServer "ldp:b" "B") overlapped :=
  Moves.turns ServerCall.echo_meaning _ _ _ _

theorem overlapped_calls : ∃ result answer produced produced',
    overlapped.calls = [(echoSubmission, done (.ok result)), (echoQuery, done (.ok answer))] ∧
    result.body = .taskResult "t1" (.object [("echo", .string "x")]) produced ∧
    answer.body = .taskResult "t1" (.object [("echo", .string "x")]) produced' :=
  ⟨_, _, _, _, rfl, rfl, rfl⟩

end LdpProtocol.TaskHistory
