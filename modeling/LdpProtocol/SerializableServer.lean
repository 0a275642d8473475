import LdpProtocol.RepeatedMessages
import LdpProtocol.SerialRuns

/-!
# The server's concurrent messages in a serial order

A submission stores its record and looks for its session in two steps, so that
other messages may come between. Each other message touches one map once. A
message takes effect at one moment of the run: where it touches a map, and a
submission where it stores or where it looks. If no submission is disturbed on
both sides, the run is one in which the messages are handled one after the other.
-/
namespace LdpProtocol.SerializableServer
open InteractivePrograms InteractivePrograms.Program InterferedRuns ConcurrentCalls SerialRuns
open JsonValues PayloadModes MessageTypes EnvelopeSigning ServerHandlers ServerRuns TaskHistory
open RepeatedMessages

/-- No lookup tells the maps apart. -/
structure SameMaps (s t : ServerState) : Prop where
  sessions : ∀ id, s.sessions.lookup id = t.sessions.lookup id
  tasks : ∀ id, s.tasks.lookup id = t.tasks.lookup id

/-- The question touches neither map. -/
def Neutral : ServerCall → Prop
  | .newV4 | .utcNow | .utcNowRfc3339 | .handler _ _ => True
  | _ => False

/-- The task whose record the question reads or writes. -/
def taskOf : ServerCall → Option String
  | .insertTask taskId _ | .getTask taskId | .removeTask taskId => some taskId
  | _ => none

theorem SameMaps.refl (s : ServerState) : SameMaps s s := ⟨fun _ => rfl, fun _ => rfl⟩

theorem SameMaps.symm {s t : ServerState} (h : SameMaps s t) : SameMaps t s :=
  ⟨fun id => (h.sessions id).symm, fun id => (h.tasks id).symm⟩

theorem SameMaps.trans {s t u : ServerState} (h : SameMaps s t) (h' : SameMaps t u) :
    SameMaps s u :=
  ⟨fun id => (h.sessions id).trans (h'.sessions id), fun id => (h.tasks id).trans (h'.tasks id)⟩

theorem SameMaps.effect {s t : ServerState} (h : SameMaps s t) (q : ServerCall) :
    SameMaps (q.effect s) (q.effect t) where
  sessions id := by rw [lookup_session_effect, lookup_session_effect, h.sessions]
  tasks id := by rw [lookup_effect, lookup_effect, h.tasks]

theorem SameMaps.answers {s t : ServerState} (h : SameMaps s t) {q : ServerCall} {a : q.Answer}
    (ha : q.Answers s a) : q.Answers t a := by
  cases q with
  | getSession id => exact Eq.trans ha (h.sessions id)
  | getTask id => exact Eq.trans ha (h.tasks id)
  | _ => trivial

theorem sameMaps_indistinct : Indistinct ServerCall.Meaning SameMaps where
  refl := SameMaps.refl
  trans _ _ _ := SameMaps.trans
  step q _ _ _ s' hm hs := by
    refine ⟨q.effect s', ⟨hs.answers hm.1, rfl⟩, ?_⟩
    rw [hm.2]
    exact hs.effect q

theorem effect_of_neutral {q : ServerCall} (h : Neutral q) (s : ServerState) : q.effect s = s := by
  cases q <;> first | rfl | exact h.elim

theorem answers_of_neutral {q : ServerCall} (h : Neutral q) (s : ServerState) (a : q.Answer) :
    q.Answers s a := by
  cases q with
  | getSession | getTask => exact h.elim
  | _ => trivial

section Passing
variable {x y : Event ServerCall ServerCall.Answer}

/-- Two questions may change places if each answers as before and the maps end up
alike. -/
theorem passes_of (hy : ∀ s, y.1.Answers (x.1.effect s) y.2 → y.1.Answers s y.2)
    (hx : ∀ s, x.1.Answers s x.2 → x.1.Answers (y.1.effect s) x.2)
    (hsame : ∀ s, SameMaps (y.1.effect (x.1.effect s)) (x.1.effect (y.1.effect s))) :
    Passes ServerCall.Meaning SameMaps x y := by
  intro s u h
  obtain ⟨t, hfirst, h⟩ := plays_cons.mp h
  obtain ⟨u', hsecond, h⟩ := plays_cons.mp h
  have hu := plays_nil.mp h
  rw [hfirst.2] at hsecond
  refine ⟨x.1.effect (y.1.effect s), ?_, ?_⟩
  · exact .cons ⟨hy s hsecond.1, rfl⟩ (.cons ⟨hx s hfirst.1, rfl⟩ (.nil _))
  · rw [hu, hsecond.2]
    exact hsame s

theorem passes_of_neutral (h : Neutral x.1 ∨ Neutral y.1) :
    Passes ServerCall.Meaning SameMaps x y := by
  apply passes_of
  · intro s ha
    rcases h with h | h
    · rwa [effect_of_neutral h] at ha
    · exact answers_of_neutral h _ _
  · intro s ha
    rcases h with h | h
    · exact answers_of_neutral h _ _
    · rwa [effect_of_neutral h]
  · intro s
    rcases h with h | h
    · rw [effect_of_neutral h, effect_of_neutral h]
      exact .refl _
    · rw [effect_of_neutral h, effect_of_neutral h]
      exact .refl _

/-- A lookup of a session may come before whatever leaves the session alone. -/
theorem passes_getSession {sessionId : String} (hy : y.1 = .getSession sessionId)
    (hx : sessionWritten sessionId x.1 = none) : Passes ServerCall.Meaning SameMaps x y := by
  obtain ⟨q, a⟩ := y
  cases hy
  have hkeep : ∀ s, (ServerCall.getSession sessionId).effect s = s := fun _ => rfl
  apply passes_of
  · intro s ha
    have hl : a = (x.1.effect s).sessions.lookup sessionId := ha
    rw [lookup_session_effect, hx] at hl
    exact hl
  · intro s ha
    rwa [hkeep]
  · intro s
    rw [hkeep, hkeep]
    exact .refl _

theorem recordWritten_none_of_taskOf {taskId : String} {q : ServerCall}
    (h : taskOf q ≠ some taskId) : recordWritten taskId q = none := by
  cases q with
  | insertTask id record =>
      have hne : id ≠ taskId := fun heq => h (congrArg some heq)
      simp [recordWritten, hne]
  | removeTask id =>
      have hne : id ≠ taskId := fun heq => h (congrArg some heq)
      simp [recordWritten, hne]
  | _ => rfl

/-- Storing a record may come after whatever is not about the task. -/
theorem passes_insertTask {taskId : String} {record : TaskRecord}
    (hx : x.1 = .insertTask taskId record) (hy : taskOf y.1 ≠ some taskId) :
    Passes ServerCall.Meaning SameMaps x y := by
  obtain ⟨q, a⟩ := x
  cases hx
  have hwritten : ∀ id, id ≠ taskId →
      recordWritten id (.insertTask taskId record) = none := by
    intro id hid
    simp [recordWritten, Ne.symm hid]
  have hsession : ∀ id, sessionWritten id (.insertTask taskId record) = none := fun _ => rfl
  apply passes_of
  · intro s ha
    obtain ⟨q, b⟩ := y
    cases q with
    | getSession id =>
        have hl : b = ((ServerCall.insertTask taskId record).effect s).sessions.lookup id := ha
        rw [lookup_session_effect] at hl
        exact hl
    | getTask id =>
        have hid : id ≠ taskId := fun heq => hy (congrArg some heq)
        have hl : b = ((ServerCall.insertTask taskId record).effect s).tasks.lookup id := ha
        rw [lookup_effect, hwritten id hid] at hl
        exact hl
    | _ => trivial
  · intro s _
    trivial
  · intro s
    constructor
    · intro id
      simp only [lookup_session_effect, hsession, Option.getD_none]
    · intro id
      simp only [lookup_effect]
      by_cases hid : id = taskId
      · rw [hid, recordWritten_none_of_taskOf hy]
        simp [recordWritten]
      · rw [hwritten id hid]
        rfl

end Passing

section Shapes
variable {srv : LdpServer} {e : LdpEnvelope} {hmac : Hmac} {tr : Trace}
  {r : Except String LdpEnvelope}

/-- A message touches the maps twice only to store a record and then to look for
its session. -/
def InShape (ev ev' : Event ServerCall ServerCall.Answer) : Prop :=
  Neutral ev.1 ∨ Neutral ev'.1 ∨
    ((∃ taskId record, ev.1 = .insertTask taskId record) ∧ ∃ id, ev'.1 = .getSession id)

theorem respond_neutral {body : LdpMessageBody} {payloadMode : PayloadMode}
    (h : Along (srv.respond e body payloadMode) tr (done r)) : ∀ ev ∈ tr, Neutral ev.1 := by
  have hp : (srv.respond e body payloadMode).Uses (fun _ _ => True) Neutral :=
    ⟨trivial, fun _ _ => ⟨trivial, fun _ _ => trivial⟩⟩
  exact h.uses hp

theorem inShape_of_neutral (h : ∀ ev ∈ tr, Neutral ev.1) : tr.Pairwise InShape := by
  apply List.Pairwise.imp_of_mem _ (List.pairwise_of_forall fun _ _ => trivial)
  intro x y hx _ _
  exact .inl (h x hx)

theorem inShape_cons {ev : Event ServerCall ServerCall.Answer} (h : ∀ ev ∈ tr, Neutral ev.1) :
    (ev :: tr).Pairwise InShape :=
  List.pairwise_cons.mpr ⟨fun y hy => .inr (.inl (h y hy)), inShape_of_neutral h⟩

theorem inShape_neutral {ev : Event ServerCall ServerCall.Answer} (hev : Neutral ev.1)
    (h : tr.Pairwise InShape) : (ev :: tr).Pairwise InShape :=
  List.pairwise_cons.mpr ⟨fun _ _ => .inl hev, h⟩

theorem handleTaskStatusQuery_neutral {taskId : String}
    (h : Along (srv.handleTaskStatusQuery e taskId) tr (done r)) :
    ∃ found rest, tr = ⟨.getTask taskId, found⟩ :: rest ∧ ∀ ev ∈ rest, Neutral ev.1 := by
  unfold LdpServer.handleTaskStatusQuery getTask at h
  simp only [call_bind, along_ask_done] at h
  obtain ⟨found, rest, htr, hrest⟩ := h
  refine ⟨found, rest, htr, ?_⟩
  cases found with
  | none =>
      rw [(along_throw_done.mp hrest).1]
      simp
  | some record =>
      obtain ⟨id, skill, state, output, error⟩ := record
      cases state with
      | completed =>
          simp only [LdpServer.resultProvenance, utcNowRfc3339, call_bind, pure_eq, ask_bind,
            pure_bind_eq, along_ask_done] at hrest
          obtain ⟨produced, last, hlast, hrest⟩ := hrest
          rw [hlast]
          exact List.forall_mem_cons.mpr ⟨trivial, respond_neutral hrest⟩
      | _ => exact respond_neutral hrest

/-- Stores a record; a submission that has finished has looked for its session too. -/
def Stores (ev : Event ServerCall ServerCall.Answer) : Prop :=
  ∃ taskId record, ev.1 = .insertTask taskId record

def Looks (ev : Event ServerCall ServerCall.Answer) : Prop := ∃ id, ev.1 = .getSession id

structure Shaped (tr : Trace) : Prop where
  pairs : tr.Pairwise InShape
  looks : ∀ ev ∈ tr, Stores ev → ∃ ev' ∈ tr, Looks ev'

theorem not_stores_of_neutral {ev : Event ServerCall ServerCall.Answer} (h : Neutral ev.1) :
    ¬ Stores ev := by
  intro hstores
  obtain ⟨taskId, record, heq⟩ := hstores
  rw [heq] at h
  exact h

theorem shaped_of_neutral (h : ∀ ev ∈ tr, Neutral ev.1) : Shaped tr :=
  ⟨inShape_of_neutral h, fun ev hev hs => (not_stores_of_neutral (h ev hev) hs).elim⟩

/-- One question about the maps and an answer. -/
theorem shaped_cons {ev : Event ServerCall ServerCall.Answer} (hev : ¬ Stores ev)
    (h : ∀ ev ∈ tr, Neutral ev.1) : Shaped (ev :: tr) := by
  refine ⟨inShape_cons h, ?_⟩
  intro ev' hev' hs
  rcases List.mem_cons.mp hev' with heq | hmem
  · exact (hev (heq ▸ hs)).elim
  · exact (not_stores_of_neutral (h ev' hmem) hs).elim

theorem Shaped.cons {ev : Event ServerCall ServerCall.Answer} (hev : Neutral ev.1)
    (h : Shaped tr) : Shaped (ev :: tr) := by
  refine ⟨inShape_neutral hev h.pairs, ?_⟩
  intro x hx hs
  rcases List.mem_cons.mp hx with heq | hmem
  · rw [heq] at hs
    exact (not_stores_of_neutral hev hs).elim
  · obtain ⟨y, hy, hlooks⟩ := h.looks x hmem hs
    exact ⟨y, List.mem_cons_of_mem _ hy, hlooks⟩

theorem handleSessionPropose_shaped {config : Value}
    (h : Along (srv.handleSessionPropose e config) tr (done r)) : Shaped tr := by
  unfold LdpServer.handleSessionPropose at h
  split at h
  · simp only [utcNow, insertSession, call_bind, along_ask_done] at h
    obtain ⟨now, tr₁, htr, _, rest, htr₁, hrest⟩ := h
    have hne : ¬ Stores ⟨.insertSession e.sessionId (srv.proposedSession e config now), ()⟩ := by
      intro hs
      obtain ⟨_, _, heq⟩ := hs
      cases heq
    rw [htr, htr₁]
    exact Shaped.cons (show Neutral .utcNow from trivial) (shaped_cons hne (respond_neutral hrest))
  · exact shaped_of_neutral (respond_neutral h)

theorem handleTaskSubmit_shaped {taskId skill : String} {input : Value}
    (h : Along (srv.handleTaskSubmit e taskId skill input) tr (done r)) : Shaped tr := by
  obtain ⟨output, produced, session, rest, htr, hrest⟩ := handleTaskSubmit_path h
  have hneutral := respond_neutral hrest
  have hclock : Neutral .utcNowRfc3339 := trivial
  have hhandler : Neutral (.handler skill input) := trivial
  rw [htr]
  constructor
  · apply inShape_neutral hhandler
    refine List.pairwise_cons.mpr ⟨?_, inShape_neutral hclock (inShape_cons hneutral)⟩
    intro ev hev
    rcases List.mem_cons.mp hev with heq | hev
    · rw [heq]
      exact .inr (.inl hclock)
    · rcases List.mem_cons.mp hev with heq | hev
      · rw [heq]
        exact .inr (.inr ⟨⟨_, _, rfl⟩, _, rfl⟩)
      · exact .inr (.inl (hneutral ev hev))
  · intro ev _ _
    exact ⟨⟨.getSession e.sessionId, session⟩, by simp, _, rfl⟩

theorem dispatch_shaped (h : Along (srv.dispatch e) tr (done r)) : Shaped tr := by
  unfold LdpServer.dispatch at h
  cases hb : e.body with
  | hello =>
      rw [hb] at h
      exact shaped_of_neutral (respond_neutral h)
  | sessionPropose config =>
      rw [hb] at h
      exact handleSessionPropose_shaped h
  | taskSubmit taskId skill input contract =>
      rw [hb] at h
      exact handleTaskSubmit_shaped h
  | taskUpdate taskId progress message =>
      rw [hb] at h
      obtain ⟨found, rest, htr, hrest⟩ := handleTaskStatusQuery_neutral h
      rw [htr]
      exact shaped_cons (by simp [Stores]) hrest
  | taskCancel taskId =>
      rw [hb] at h
      simp only [LdpServer.handleTaskCancel, removeTask, call_bind, along_ask_done] at h
      obtain ⟨_, rest, htr, hrest⟩ := h
      rw [htr]
      exact shaped_cons (by simp [Stores]) (respond_neutral hrest)
  | sessionClose reason =>
      rw [hb] at h
      simp only [LdpServer.handleSessionClose, removeSession, call_bind, along_ask_done] at h
      obtain ⟨_, rest, htr, hrest⟩ := h
      rw [htr]
      exact shaped_cons (by simp [Stores]) (respond_neutral hrest)
  | _ =>
      rw [hb] at h
      rw [(along_throw_done.mp h).1]
      exact shaped_of_neutral (by simp)

theorem handleMessage_shaped (h : Along (srv.handleMessage hmac e) tr (done r)) : Shaped tr := by
  cases hsig : srv.signatureError hmac e with
  | some error =>
      rcases handleMessage_along h with ⟨_, _, htr, _⟩ | ⟨hnone, _⟩
      · rw [htr]
        exact shaped_of_neutral (by simp)
      · rw [hsig] at hnone
        cases hnone
  | none =>
      obtain ⟨outcome, hpath, _⟩ := handleMessage_done hsig h
      exact dispatch_shaped hpath

end Shapes

section Runs
variable {hmac : Hmac} {srv : LdpServer} {k : ServerConfig}

/-- Every message that was delivered has been answered. -/
def Settled (k : ServerConfig) : Prop :=
  ∀ (i : ℕ) (e : LdpEnvelope) (p : ServerProgram LdpEnvelope), k.calls[i]? = some (e, p) →
    ∃ r, p = done r

/-- Between storing its record and looking for its session, no submission meets both
another message about its task and another message that writes its session. -/
def Undisturbed (log : List ServerEntry) : Prop :=
  ∀ (a b : ℕ) (x y : ServerEntry) (taskId : String) (record : TaskRecord) (sessionId : String),
    log[a]? = some x → log[b]? = some y → x.caller = y.caller →
    x.event.1 = .insertTask taskId record → y.event.1 = .getSession sessionId →
    (∀ m z, a < m → m < b → log[m]? = some z → z.caller ≠ x.caller →
      taskOf z.event.1 ≠ some taskId) ∨
    (∀ m z, a < m → m < b → log[m]? = some z → z.caller ≠ x.caller →
      sessionWritten sessionId z.event.1 = none)

/-- The moment `p` can stand for everything the message did to the maps. -/
def PointAt (log : List ServerEntry) (i p : ℕ) : Prop :=
  ((∃ x ∈ log, x.caller = i) → ∃ x, log[p]? = some x ∧ x.caller = i) ∧
  ∀ m x, log[m]? = some x → x.caller = i → ¬ Neutral x.event.1 → m = p ∨
    (m < p ∧ ∃ taskId record, x.event.1 = .insertTask taskId record ∧
      ∀ l z, m < l → l < p → log[l]? = some z → z.caller ≠ i →
        taskOf z.event.1 ≠ some taskId) ∨
    (p < m ∧ ∃ sessionId, x.event.1 = .getSession sessionId ∧
      ∀ l z, p < l → l < m → log[l]? = some z → z.caller ≠ i →
        sessionWritten sessionId z.event.1 = none)

theorem Settled.shaped (hs : Settled k) (h : Serving hmac srv k) (i : ℕ) :
    Shaped (traceOf i k.log) := by
  cases hcall : k.calls[i]? with
  | some call =>
      obtain ⟨e, p⟩ := call
      have hpath := h.follows.along i e p hcall
      obtain ⟨r, hr⟩ := hs i e p hcall
      rw [hr] at hpath
      exact handleMessage_shaped hpath
  | none =>
      have hnone : traceOf i k.log = [] := by
        rw [List.eq_nil_iff_forall_not_mem]
        intro ev hev
        obtain ⟨x, hx, hcaller, _⟩ := mem_traceOf.mp hev
        have hlt := h.follows.caller x hx
        have hle := List.getElem?_eq_none_iff.mp hcall
        omega
      rw [hnone]
      exact shaped_of_neutral (by simp)

/-- Two questions of one message about the maps store a record and look for a session. -/
theorem Settled.inShape (hs : Settled k) (h : Serving hmac srv k) {a b : ℕ} {x y : ServerEntry}
    (ha : k.log[a]? = some x) (hb : k.log[b]? = some y) (hcaller : x.caller = y.caller)
    (hx : ¬ Neutral x.event.1) (hy : ¬ Neutral y.event.1) (hab : a < b) :
    Stores x.event ∧ Looks y.event := by
  have hpairs := pairwise_of_traceOf fun i => (hs.shaped h i).pairs
  rcases pairwise_at hpairs ha hb hab hcaller with hn | hn | hboth
  · exact (hx hn).elim
  · exact (hy hn).elim
  · exact hboth

theorem not_neutral_of_stores {ev : Event ServerCall ServerCall.Answer} (h : Stores ev) :
    ¬ Neutral ev.1 := fun hn => not_stores_of_neutral hn h

theorem not_neutral_of_looks {ev : Event ServerCall ServerCall.Answer} (h : Looks ev) :
    ¬ Neutral ev.1 := by
  intro hn
  obtain ⟨id, heq⟩ := h
  rw [heq] at hn
  exact hn

theorem not_stores_of_looks {ev : Event ServerCall ServerCall.Answer} (h : Looks ev) :
    ¬ Stores ev := by
  intro hs
  obtain ⟨_, heq⟩ := h
  obtain ⟨_, _, hinsert⟩ := hs
  rw [heq] at hinsert
  cases hinsert

/-- A submission that has been answered has stored once and looked once. -/
theorem Settled.submission (hs : Settled k) (h : Serving hmac srv k) {a : ℕ} {x : ServerEntry}
    (ha : k.log[a]? = some x) (hx : Stores x.event) :
    ∃ b y, k.log[b]? = some y ∧ y.caller = x.caller ∧ Looks y.event ∧ a < b ∧
      ∀ m z, k.log[m]? = some z → z.caller = x.caller → ¬ Neutral z.event.1 → m = a ∨ m = b := by
  have hmem : x.event ∈ traceOf x.caller k.log :=
    mem_traceOf.mpr ⟨x, List.mem_of_getElem? ha, rfl, rfl⟩
  obtain ⟨ev, hev, hlooks⟩ := (hs.shaped h x.caller).looks x.event hmem hx
  obtain ⟨y, hy, hcaller, hevent⟩ := mem_traceOf.mp hev
  obtain ⟨b, hb⟩ := List.getElem?_of_mem hy
  rw [← hevent] at hlooks
  have hxn := not_neutral_of_stores hx
  have hyn := not_neutral_of_looks hlooks
  have hab : a < b := by
    rcases Nat.lt_trichotomy a b with hlt | heq | hgt
    · exact hlt
    · rw [heq, hb] at ha
      cases ha
      exact (not_stores_of_looks hlooks hx).elim
    · exact (not_stores_of_looks hlooks (hs.inShape h hb ha hcaller hyn hxn hgt).1).elim
  refine ⟨b, y, hb, hcaller, hlooks, hab, ?_⟩
  intro m z hm hz hzn
  rcases Nat.lt_trichotomy m a with hlt | heq | hgt
  · exact (not_stores_of_looks (hs.inShape h hm ha hz hzn hxn hlt).2 hx).elim
  · exact .inl heq
  · have hlook := (hs.inShape h ha hm hz.symm hxn hzn hgt).2
    rcases Nat.lt_trichotomy m b with hlt | heq | hgt'
    · have hstore := (hs.inShape h hm hb (hz.trans hcaller.symm) hzn hyn hlt).1
      exact (not_stores_of_looks hlook hstore).elim
    · exact .inr heq
    · have hstore := (hs.inShape h hb hm (hcaller.trans hz.symm) hyn hzn hgt').1
      exact (not_stores_of_looks hlooks hstore).elim

theorem exists_point (h : Serving hmac srv k) (hs : Settled k) (hu : Undisturbed k.log) (i : ℕ) :
    ∃ p, PointAt k.log i p := by
  by_cases hstores : ∃ (a : ℕ) (x : ServerEntry), k.log[a]? = some x ∧ x.caller = i ∧ Stores x.event
  · obtain ⟨a, x, ha, hxi, hx⟩ := hstores
    obtain ⟨b, y, hb, hyx, hy, hab, honly⟩ := hs.submission h ha hx
    obtain ⟨taskId, record, hinsert⟩ := hx
    obtain ⟨sessionId, hlook⟩ := hy
    rw [hxi] at honly hyx
    rcases hu a b x y taskId record sessionId ha hb (hxi.trans hyx.symm) hinsert hlook with
      htask | hsession
    · refine ⟨b, fun _ => ⟨y, hb, hyx⟩, ?_⟩
      intro m z hm hz hzn
      rcases honly m z hm hz hzn with heq | heq
      · subst heq
        rw [ha] at hm
        cases hm
        rw [hxi] at htask
        exact .inr (.inl ⟨hab, taskId, record, hinsert, htask⟩)
      · exact .inl heq
    · refine ⟨a, fun _ => ⟨x, ha, hxi⟩, ?_⟩
      intro m z hm hz hzn
      rcases honly m z hm hz hzn with heq | heq
      · exact .inl heq
      · subst heq
        rw [hb] at hm
        cases hm
        rw [hxi] at hsession
        exact .inr (.inr ⟨hab, sessionId, hlook, hsession⟩)
  · have hnone : ∀ (m : ℕ) (z : ServerEntry), k.log[m]? = some z → z.caller = i →
        ¬ Stores z.event :=
      fun m z hm hz hstore => hstores ⟨m, z, hm, hz, hstore⟩
    by_cases htouch : ∃ (p : ℕ) (x : ServerEntry), k.log[p]? = some x ∧ x.caller = i ∧
        ¬ Neutral x.event.1
    · obtain ⟨p, x, hp, hxi, hx⟩ := htouch
      refine ⟨p, fun _ => ⟨x, hp, hxi⟩, ?_⟩
      intro m z hm hz hzn
      rcases Nat.lt_trichotomy m p with hlt | heq | hgt
      · have hstore := (hs.inShape h hm hp (hz.trans hxi.symm) hzn hx hlt).1
        exact (hnone m z hm hz hstore).elim
      · exact .inl heq
      · have hstore := (hs.inShape h hp hm (hxi.trans hz.symm) hx hzn hgt).1
        exact (hnone p x hp hxi hstore).elim
    · have hneutral : ∀ (m : ℕ) (z : ServerEntry), k.log[m]? = some z → z.caller = i →
          Neutral z.event.1 := by
        intro m z hm hz
        by_contra hzn
        exact htouch ⟨m, z, hm, hz, hzn⟩
      by_cases hany : ∃ x ∈ k.log, x.caller = i
      · obtain ⟨x, hx, hxi⟩ := hany
        obtain ⟨p, hp⟩ := List.getElem?_of_mem hx
        exact ⟨p, fun _ => ⟨x, hp, hxi⟩, fun m z hm hz hzn => (hzn (hneutral m z hm hz)).elim⟩
      · exact ⟨0, fun h => (hany h).elim, fun m z hm hz hzn => (hzn (hneutral m z hm hz)).elim⟩

/-- What two messages did to the maps may change places where the points stand the
other way. -/
theorem passes_of_points {log : List ServerEntry} {point : ℕ → ℕ}
    (hpoint : ∀ i, PointAt log i (point i)) {a b : ℕ} {x y : ServerEntry}
    (ha : log[a]? = some x) (hb : log[b]? = some y) (hab : a < b) (hne : x.caller ≠ y.caller)
    (hle : point y.caller ≤ point x.caller) :
    Passes ServerCall.Meaning SameMaps x.event y.event := by
  by_cases hx : Neutral x.event.1
  · exact passes_of_neutral (.inl hx)
  by_cases hy : Neutral y.event.1
  · exact passes_of_neutral (.inr hy)
  obtain ⟨x', hx', hxcaller⟩ := (hpoint x.caller).1 ⟨x, List.mem_of_getElem? ha, rfl⟩
  obtain ⟨y', hy', hycaller⟩ := (hpoint y.caller).1 ⟨y, List.mem_of_getElem? hb, rfl⟩
  have hlt : point y.caller < point x.caller := by
    rcases Nat.lt_or_eq_of_le hle with hlt | heq
    · exact hlt
    · rw [heq, hx'] at hy'
      cases hy'
      exact (hne (hxcaller.symm.trans hycaller)).elim
  rcases (hpoint x.caller).2 a x ha rfl hx with hxp | ⟨hxp, taskId, record, hinsert, hfree⟩ |
    ⟨hxp, sessionId, hlook, _⟩
  · -- the first message takes effect here: the other one has, and looks late
    rcases (hpoint y.caller).2 b y hb rfl hy with hyp | ⟨hyp, _⟩ | ⟨hyp, sessionId, hlook, hfree⟩
    · omega
    · omega
    · exact passes_getSession hlook (hfree a x (by omega) hab ha hne)
  · -- the first message has stored and takes effect later: the task is its own
    rcases (hpoint y.caller).2 b y hb rfl hy with hyp | ⟨hyp, _⟩ | ⟨_, sessionId, hlook, _⟩
    · exact passes_insertTask hinsert (hfree b y hab (by omega) hb (Ne.symm hne))
    · exact passes_insertTask hinsert (hfree b y hab (by omega) hb (Ne.symm hne))
    · exact passes_getSession hlook (by rw [hinsert]; rfl)
  · -- the first message only looks
    rcases (hpoint y.caller).2 b y hb rfl hy with hyp | ⟨hyp, _⟩ | ⟨_, id, hlook', _⟩
    · omega
    · omega
    · exact passes_getSession hlook' (by rw [hlook]; rfl)

/-- Messages handled one after the other make a history of the server. -/
theorem serves_of_serial {s u : ServerState} {log : List Exchange}
    {history : List (LdpEnvelope × Trace × Except String LdpEnvelope)}
    (h : Serial ServerCall.Meaning (srv.handleMessage hmac) s history u)
    (hserves : Serves hmac srv log s) :
    ∃ more, Serves hmac srv (log ++ more) u ∧
      more.map (fun x => (x.envelope, x.trace, x.outcome)) = history := by
  induction h generalizing log with
  | nil s => exact ⟨[], by rw [List.append_nil]; exact hserves, rfl⟩
  | @cons s t u e tr r rest hrun _ ih =>
      obtain ⟨more, hmore, hmap⟩ := ih (hserves.handle hrun)
      rw [List.append_assoc] at hmore
      exact ⟨⟨e, tr, s, t, r⟩ :: more, hmore, by rw [List.map_cons, hmap]⟩

/-- Once everything is answered, and if no submission was disturbed on both sides, the
messages might as well have been handled one after the other: some order of them
gives every message the questions, answers and outcome it had and leads to the same
maps, and a message whose questions all came before another's comes before it. -/
theorem messages_serializable (hmac : Hmac) (srv : LdpServer) (k : ServerConfig)
    (h : Serving hmac srv k) (hs : Settled k) (hu : Undisturbed k.log) :
    ∃ (order : List ℕ) (log : List Exchange) (s : ServerState),
      order.Perm (List.range k.calls.length) ∧ Serves hmac srv log s ∧ SameMaps k.state s ∧
      List.Forall₂ (fun i x => k.calls[i]? = some (x.envelope, done x.outcome) ∧
        x.trace = traceOf i k.log) order log ∧
      ∀ i j, traceOf i k.log ≠ [] → traceOf j k.log ≠ [] →
        (∀ (a b : ℕ) (x y : ServerEntry), k.log[a]? = some x → k.log[b]? = some y →
          x.caller = i → y.caller = j → a < b) → Before order i j := by
  choose point hpoint using exists_point h hs hu
  obtain ⟨order, hperm, hsorted⟩ := exists_order point k.calls.length
  have hmem : ∀ x ∈ k.log, x.caller ∈ order := fun x hx =>
    hperm.mem_iff.mpr (List.mem_range.mpr (h.follows.caller x hx))
  have hpass : k.log.Pairwise fun x y => Before order y.caller x.caller →
      x.caller ≠ y.caller → Passes ServerCall.Meaning SameMaps x.event y.event := by
    rw [List.pairwise_iff_getElem]
    intro a b hla hlb hab hbefore hne
    exact passes_of_points hpoint (List.getElem?_eq_getElem hla) (List.getElem?_eq_getElem hlb)
      hab hne (pair_le hsorted hbefore)
  obtain ⟨s, hplays, hsame⟩ := Plays.callByCall sameMaps_indistinct
    (hperm.nodup_iff.mpr List.nodup_range) hmem hpass (Moves.plays h)
  have hdone : ∀ i ∈ order, ∃ e r, k.calls[i]? = some (e, done r) ∧
      Along (srv.handleMessage hmac e) (traceOf i k.log) (done r) := by
    intro i hi
    have hlt := List.mem_range.mp (hperm.mem_iff.mp hi)
    obtain ⟨r, hr⟩ := hs i _ _ (List.getElem?_eq_getElem hlt)
    have hcall : k.calls[i]? = some (k.calls[i].1, done r) := by
      rw [← hr]
      exact List.getElem?_eq_getElem hlt
    exact ⟨_, r, hcall, h.follows.along i _ _ hcall⟩
  obtain ⟨history, hserial, hall⟩ := Plays.serial hdone hplays
  obtain ⟨log, hserves, hmap⟩ := serves_of_serial hserial .start
  rw [List.nil_append] at hserves
  refine ⟨order, log, s, hperm, hserves, hsame, ?_, ?_⟩
  · rw [← hmap, List.forall₂_map_right_iff] at hall
    exact hall
  · intro i j hi hj hfirst
    obtain ⟨x, hx, hxi⟩ : ∃ x ∈ k.log, x.caller = i := by
      obtain ⟨ev, hev⟩ := List.exists_mem_of_ne_nil _ hi
      obtain ⟨x, hx, hxi, _⟩ := mem_traceOf.mp hev
      exact ⟨x, hx, hxi⟩
    obtain ⟨y, hy, hyj⟩ : ∃ y ∈ k.log, y.caller = j := by
      obtain ⟨ev, hev⟩ := List.exists_mem_of_ne_nil _ hj
      obtain ⟨y, hy, hyj, _⟩ := mem_traceOf.mp hev
      exact ⟨y, hy, hyj⟩
    obtain ⟨x', hx', hxi'⟩ := (hpoint i).1 ⟨x, hx, hxi⟩
    obtain ⟨y', hy', hyj'⟩ := (hpoint j).1 ⟨y, hy, hyj⟩
    apply pair_of_lt hsorted (hxi ▸ hmem x hx) (hyj ▸ hmem y hy)
    exact hfirst _ _ x' y' hx' hy' hxi' hyj'

/-- A query reads the record of a submission that has not looked for its session yet. -/
theorem messages_serializable_overlapped :
    ∃ (order : List ℕ) (log : List Exchange) (s : ServerState), order.Perm (List.range 2) ∧
      Serves submissionMac (LdpServer.echoServer "ldp:b" "B") log s ∧
      SameMaps overlapped.state s ∧ log.length = 2 := by
  obtain ⟨result, answer, _, _, hcalls, _⟩ := overlapped_calls
  have hsettled : Settled overlapped := by
    intro i e p hi
    rw [hcalls] at hi
    match i, hi with
    | 0, hi =>
        cases hi
        exact ⟨_, rfl⟩
    | 1, hi =>
        cases hi
        exact ⟨_, rfl⟩
  -- No message of the two writes a session.
  have hundisturbed : Undisturbed overlapped.log := by
    intro a b x y taskId record sessionId _ _ _ _ _
    refine .inr fun m z _ _ hm _ => ?_
    have hnone : (overlapped.log.all fun z =>
        (sessionWritten sessionId z.event.1).isNone) = true := rfl
    exact Option.isNone_iff_eq_none.mp (List.all_eq_true.mp hnone z (List.mem_of_getElem? hm))
  obtain ⟨order, log, s, hperm, hserves, hsame, hall, _⟩ :=
    messages_serializable _ _ _ serving_overlapped hsettled hundisturbed
  rw [hcalls] at hperm
  refine ⟨order, log, s, hperm, hserves, hsame, ?_⟩
  rw [← hall.length_eq, hperm.length_eq]
  rfl

end Runs
end LdpProtocol.SerializableServer
