import LdpProtocol.AdapterRuns

/-!
# The verdict on a task result

What a call reports is a function of the contract, the result that was polled
last and the clock at that moment. `status` and `stream` judge alike; they differ
in the provenance they embed.
-/
namespace LdpProtocol.AdapterVerdicts
open InteractivePrograms InterferedRuns ConcurrentCalls Relation
open InteractivePrograms.Program (call_bind pure_eq ask_bind pure_bind_eq throw_bind uses_pure)
open JsonValues PayloadModes MessageTypes EnvelopeSigning SessionManager LdpAdapter AdapterRuns
open ClientQuestions (validateContract_uses completedEvent_uses)

section Verdicts
variable (parseRfc3339 : String → Option ℤ)

def lateCodes (contract : DelegationContract) (now : ℤ) : List String :=
  match contract.deadline.bind parseRfc3339 with
  | some deadline => if now > deadline then ["deadline_exceeded"] else []
  | none => []

/-- The violations of a contract at a reading of the clock. -/
def violationsAt (contract : DelegationContract) (provenance : Provenance) (now : ℤ) :
    List String :=
  lateCodes parseRfc3339 contract now ++ budgetViolations contract provenance

def violationsOf (contract : Option DelegationContract) (provenance : Provenance) (now : ℤ) :
    List String :=
  match contract with
  | some contract => violationsAt parseRfc3339 contract (received provenance) now
  | none => []

/-- The verdict, with the output already embedded. -/
def judged (contract : Option DelegationContract) (violations : List String) (output : Value) :
    TaskStatus :=
  match contract with
  | some contract =>
      if failsClosed contract violations then .failed (contractViolated violations output)
      else .completed output
  | none => .completed output

/-- The contract fields of the provenance, filled in. -/
def annotated (contract : Option DelegationContract) (violations : List String)
    (provenance : Provenance) : Provenance :=
  match contract with
  | some contract =>
      { provenance with
        contractId := some contract.contractId
        contractSatisfied := some violations.isEmpty
        contractViolations := violations }
  | none => provenance

variable (config : LdpAdapterConfig) (contract : Option DelegationContract) (output : Value)
  (provenance : Provenance) (now : ℤ)

def polledStatus : TaskStatus :=
  let violations := violationsOf parseRfc3339 contract provenance now
  judged contract violations
    (embedProvenance config output (annotated contract violations (received provenance)))

def streamedStatus : TaskStatus :=
  judged contract (violationsOf parseRfc3339 contract provenance now)
    (embedProvenance config output (received provenance))

end Verdicts

/-- What an event says about the end of its task. -/
def ended : TaskEvent → Option TaskStatus
  | .completed output => some (.completed output)
  | .failed error => some (.failed error)
  | .progress _ _ => none

/-- The events say nothing of an end before the last one does. -/
def EndsWith (events : List TaskEvent) (status : TaskStatus) : Prop :=
  ∃ before event, events = before ++ [event] ∧ (∀ e ∈ before, ended e = none) ∧
    ended event = some status

/-- The last poll was answered with `response`, and the clock read `now` after. -/
def Evaluated (response : LdpEnvelope) (now : ℤ) : Trace → Prop
  | [] => False
  | ev :: rest => Evaluated response now rest ∨
      (IsPoll ev.1 ∧ ∃ url message, ev = ⟨.sendMessage url message, .ok response⟩) ∧
        ∀ later ∈ rest, ¬ IsPoll later.1 ∧ ∀ a, later = ⟨.utcNow, a⟩ → a = now

/-- What a response comes to that ends its task: a result to the verdict on it, a
failure to its own error. -/
structure Decides (response : LdpEnvelope) (verdict : Value → Provenance → TaskStatus)
    (P : TaskStatus → Prop) : Prop where
  result : ∀ {id output provenance}, response.body = .taskResult id output provenance →
    P (verdict output provenance)
  failed : ∀ {id error}, response.body = .taskFailed id error → P (.failed error)

theorem Decides.imp {response : LdpEnvelope} {verdict : Value → Provenance → TaskStatus}
    {P P' : TaskStatus → Prop} (h : Decides response verdict P) (himp : ∀ s, P s → P' s) :
    Decides response verdict P' :=
  ⟨fun hbody => himp _ (h.result hbody), fun hbody => himp _ (h.failed hbody)⟩

section Polls
variable {response : LdpEnvelope} {now : ℤ} {tr tr₁ tr₂ : Trace}

/-- When all polls get one response at one time, the last one does. -/
theorem evaluated_of_polls
    (hpolls : ∀ ev ∈ tr, IsPoll ev.1 → ∃ url message, ev = ⟨.sendMessage url message, .ok response⟩)
    (hclock : ∀ a, ⟨.utcNow, a⟩ ∈ tr → a = now) (hpolled : ∃ ev ∈ tr, IsPoll ev.1) :
    Evaluated response now tr := by
  induction tr with
  | nil =>
      obtain ⟨ev, hev, _⟩ := hpolled
      cases hev
  | cons first rest ih =>
      by_cases hrest : ∃ ev ∈ rest, IsPoll ev.1
      · exact .inl (ih (fun ev hev => hpolls ev (List.mem_cons_of_mem _ hev))
          (fun a ha => hclock a (List.mem_cons_of_mem _ ha)) hrest)
      · obtain ⟨ev, hev, hpoll⟩ := hpolled
        rcases List.mem_cons.mp hev with hfirst | hin
        · subst hfirst
          refine .inr ⟨⟨hpoll, hpolls ev List.mem_cons_self hpoll⟩, ?_⟩
          intro later hlater
          refine ⟨fun hpoll' => hrest ⟨later, hlater, hpoll'⟩, ?_⟩
          intro a ha
          rw [ha] at hlater
          exact hclock a (List.mem_cons_of_mem _ hlater)
        · exact (hrest ⟨ev, hin, hpoll⟩).elim

theorem evaluated_append (h : ∀ ev ∈ tr₁, ¬ IsPoll ev.1) :
    Evaluated response now (tr₁ ++ tr₂) ↔ Evaluated response now tr₂ := by
  induction tr₁ with
  | nil => exact Iff.rfl
  | cons ev rest ih =>
      have hrest := ih fun ev' hev' => h ev' (List.mem_cons_of_mem _ hev')
      rw [← hrest]
      constructor
      · intro he
        rcases he with he | ⟨⟨hpoll, _⟩, _⟩
        · exact he
        · exact (h ev List.mem_cons_self hpoll).elim
      · exact .inl

theorem not_evaluated (h : ∀ ev ∈ tr, ¬ IsPoll ev.1) : ¬ Evaluated response now tr := by
  intro he
  rw [← List.append_nil tr, evaluated_append h] at he
  exact he

/-- After a poll either a later one decides or its own answer does. -/
theorem evaluated_poll {url : String} {message : LdpEnvelope} {a : Except String LdpEnvelope}
    (h : Evaluated response now (⟨.sendMessage url message, a⟩ :: tr)) :
    Evaluated response now tr ∨ a = .ok response ∧ (∀ later ∈ tr, ¬ IsPoll later.1) ∧
      ∀ b, ⟨.utcNow, b⟩ ∈ tr → b = now := by
  rcases h with he | ⟨⟨_, url', message', hev⟩, hlater⟩
  · exact .inl he
  · cases hev
    refine .inr ⟨rfl, fun later hin => (hlater later hin).1, ?_⟩
    intro b hb
    exact (hlater _ hb).2 b rfl

end Polls

section Paths
variable {parseRfc3339 : String → Option ℤ} {hmac : Hmac} {config : LdpAdapterConfig}
  {url taskId : String} {response : LdpEnvelope} {now : ℤ} {tr : Trace}

theorem validateContract_done {α : Type} {contract : DelegationContract}
    {provenance : Provenance} {g : List String → α} {r : Except String α}
    (h : Along (validateContract parseRfc3339 contract provenance >>= fun v => .pure (g v)) tr
      (done r)) (hclock : ∀ b, ⟨.utcNow, b⟩ ∈ tr → b = now) :
    r = .ok (g (violationsAt parseRfc3339 contract provenance now)) := by
  unfold validateContract deadlineViolations SessionManager.utcNow at h
  unfold violationsAt lateCodes
  cases hdeadline : contract.deadline.bind parseRfc3339 with
  | none =>
      rw [hdeadline] at h
      simp only [pure_eq, pure_bind_eq, along_pure_done] at h
      exact h.2
  | some deadline =>
      rw [hdeadline] at h
      simp only [call_bind, pure_eq, ask_bind, pure_bind_eq, along_ask_done,
        along_pure_done] at h
      obtain ⟨reading, rest, htr, _, hr⟩ := h
      have hnow : reading = now := hclock reading (by rw [htr]; exact List.mem_cons_self)
      rw [hr, hnow]

theorem statusQuery_done {α : Type} {f : LdpEnvelope → ClientProgram α} {r : Except String α}
    (h : Along (statusQuery config url taskId >>= f) tr (done r)) :
    ∃ query messageId timestamp rest,
      tr = ⟨.newV4, messageId⟩ :: ⟨.utcNowRfc3339, timestamp⟩ :: rest ∧
      Along (f query) rest (done r) := by
  unfold statusQuery newEnvelope SessionManager.newV4 SessionManager.utcNowRfc3339 at h
  simp only [call_bind, pure_eq, ask_bind, pure_bind_eq, along_ask_done] at h
  obtain ⟨messageId, _, htr, timestamp, rest, hrest, hf⟩ := h
  exact ⟨_, messageId, timestamp, rest, by rw [htr, hrest], hf⟩

theorem evaluated_query {messageId timestamp : String} :
    Evaluated response now (⟨.newV4, messageId⟩ :: ⟨.utcNowRfc3339, timestamp⟩ :: tr) ↔
      Evaluated response now tr := by
  have hquery : ∀ ev ∈ ([⟨.newV4, messageId⟩, ⟨.utcNowRfc3339, timestamp⟩] : Trace),
      ¬ IsPoll ev.1 := by
    intro ev hev
    rcases List.mem_cons.mp hev with hev | hev
    · rw [hev]
      exact id
    · rw [List.mem_singleton.mp hev]
      exact id
  exact evaluated_append hquery

/-- What `status` makes of the answer to its query. -/
theorem status_done {r : Except String TaskStatus}
    (h : Along (LdpAdapter.status parseRfc3339 hmac config url taskId) tr (done r))
    (he : Evaluated response now tr) :
    (∀ id output provenance, response.body = .taskResult id output provenance →
      ∃ found, ⟨.getContract taskId, found⟩ ∈ tr ∧
        r = .ok (polledStatus parseRfc3339 config found output provenance now)) ∧
    ∀ id error, response.body = .taskFailed id error → r = .ok (.failed error) := by
  obtain ⟨query, messageId, timestamp, tr₁, htr, h₁⟩ := statusQuery_done h
  rw [htr, evaluated_query] at he
  unfold sendSigned SessionManager.sendMessage at h₁
  simp only [call_bind, ask_bind, along_ask_done] at h₁
  obtain ⟨answer, rest, htr₁, h₂⟩ := h₁
  rw [htr₁] at he
  cases answer with
  | error e =>
      simp only [Program.ofExcept, throw_bind, along_throw_done] at h₂
      rw [h₂.1] at he
      rcases evaluated_poll he with hnil | ⟨herror, _⟩
      · exact hnil.elim
      · cases herror
  | ok envelope =>
      simp only [Program.ofExcept, pure_bind_eq] at h₂
      have hnopoll : ∀ later ∈ rest, ¬ IsPoll later.1 := by
        refine h₂.uses (P := fun q => ¬ IsPoll q) ?_
        split
        · exact uses_pure _
        · refine ⟨id, ?_⟩
          intro found _
          cases found with
          | none => exact uses_pure _
          | some contract =>
              exact (validateContract_uses id contract _).bind fun _ => uses_pure _
        · exact uses_pure _
        · exact uses_pure _
      rcases evaluated_poll he with hlater | ⟨hok, _, hclock⟩
      · exact (not_evaluated hnopoll hlater).elim
      · cases hok
        constructor
        · intro id output provenance hbody
          rw [hbody] at h₂
          unfold getContract at h₂
          simp only [call_bind, along_ask_done] at h₂
          obtain ⟨found, rest', hrest, h₃⟩ := h₂
          refine ⟨found, by rw [htr, htr₁, hrest]; simp, ?_⟩
          cases found with
          | none => exact (along_pure_done.mp h₃).2
          | some contract =>
              apply validateContract_done h₃
              intro b hb
              exact hclock b (by rw [hrest]; exact List.mem_cons_of_mem _ hb)
        · intro id error hbody
          rw [hbody] at h₂
          exact (along_pure_done.mp h₂).2

theorem EndsWith.single {event : TaskEvent} {status : TaskStatus}
    (h : ended event = some status) : EndsWith [event] status :=
  ⟨[], event, rfl, by simp, h⟩

theorem EndsWith.progress {events : List TaskEvent} {status : TaskStatus} {message : String}
    {progress : Option ℚ} (h : EndsWith events status) :
    EndsWith (.progress message progress :: events) status := by
  obtain ⟨before, last, hevents, hbefore, hlast⟩ := h
  refine ⟨.progress message progress :: before, last, by rw [hevents]; rfl, ?_, hlast⟩
  intro e he
  rcases List.mem_cons.mp he with he | he
  · rw [he]
    rfl
  · exact hbefore e he

theorem ended_judged {contract : Option DelegationContract} {violations : List String}
    {output : Value} {event : TaskEvent}
    (h : event = match contract with
      | some contract =>
          if failsClosed contract violations then .failed (contractViolated violations output)
          else .completed output
      | none => .completed output) :
    ended event = some (judged contract violations output) := by
  rw [h]
  cases contract with
  | none => rfl
  | some contract =>
      unfold judged
      dsimp only
      split <;> rfl

/-- The event that ends a stream is judged like a status. -/
theorem completedEvent_done {contract : Option DelegationContract} {output : Value}
    {provenance : Provenance} {r : Except String TaskEvent}
    (h : Along (completedEvent parseRfc3339 config contract output (received provenance)) tr
      (done r)) (hclock : ∀ b, ⟨.utcNow, b⟩ ∈ tr → b = now) :
    ∃ event, r = .ok event ∧
      ended event = some (streamedStatus parseRfc3339 config contract output provenance now) := by
  cases contract with
  | none => exact ⟨_, (along_pure_done.mp h).2, rfl⟩
  | some contract => exact ⟨_, validateContract_done h hclock, ended_judged rfl⟩

/-- How a stream ends on the answer to its last query. -/
theorem pollUpdates_done {contract : Option DelegationContract} {ticks : ℕ}
    {r : Except String (List TaskEvent)}
    (h : Along (pollUpdates parseRfc3339 hmac config url taskId contract ticks) tr (done r))
    (he : Evaluated response now tr) :
    Decides response
      (fun output provenance => streamedStatus parseRfc3339 config contract output provenance now)
      fun status => ∃ events, r = .ok events ∧ EndsWith events status := by
  induction ticks generalizing tr r with
  | zero =>
      rw [(along_pure_done.mp h).1] at he
      exact he.elim
  | succ ticks ih =>
      obtain ⟨query, messageId, timestamp, tr₁, htr, h₁⟩ := statusQuery_done h
      rw [htr, evaluated_query] at he
      unfold SessionManager.sendMessage at h₁
      simp only [call_bind, along_ask_done] at h₁
      obtain ⟨answer, rest, htr₁, h₂⟩ := h₁
      rw [htr₁] at he
      cases answer with
      | error e =>
          rw [(along_pure_done.mp h₂).1] at he
          rcases evaluated_poll he with hnil | ⟨herror, _⟩
          · exact hnil.elim
          · cases herror
      | ok envelope =>
          dsimp only at h₂
          -- either a later poll decides, or this answer is the response
          have hown := evaluated_poll he
          cases hb : envelope.body with
          | taskUpdate id progress message =>
              rw [hb] at h₂
              obtain ⟨r', hrest, hr⟩ := h₂.of_bind_map
              rcases hown with hlater | ⟨hok, _⟩
              · refine (ih hrest hlater).imp ?_
                intro status hstatus
                obtain ⟨events, hevents, hends⟩ := hstatus
                exact ⟨_, by rw [hr, hevents]; rfl, hends.progress⟩
              · cases hok
                exact ⟨by simp [hb], by simp [hb]⟩
          | taskResult id output provenance =>
              rw [hb] at h₂
              obtain ⟨r', hrest, hr⟩ := h₂.of_bind_map
              rcases hown with hlater | ⟨hok, _, hclock⟩
              · have hnopoll := hrest.uses (P := fun q => ¬ IsPoll q)
                  (completedEvent_uses not_false contract output _)
                exact (not_evaluated hnopoll hlater).elim
              · cases hok
                refine ⟨?_, by simp [hb]⟩
                intro id' output' provenance' hbody
                rw [hb] at hbody
                cases hbody
                obtain ⟨event, hevent, hended⟩ := completedEvent_done hrest hclock
                exact ⟨[event], by rw [hr, hevent]; rfl, .single hended⟩
          | taskFailed id error =>
              rw [hb] at h₂
              obtain ⟨hnil, hr⟩ := along_pure_done.mp h₂
              rw [hnil] at hown
              rcases hown with hlater | ⟨hok, _⟩
              · exact hlater.elim
              · cases hok
                refine ⟨by simp [hb], ?_⟩
                intro id' error' hbody
                rw [hb] at hbody
                cases hbody
                exact ⟨_, hr, .single rfl⟩
          | _ =>
              rw [hb] at h₂
              rcases hown with hlater | ⟨hok, _⟩
              · exact ih h₂ hlater
              · cases hok
                exact ⟨by simp [hb], by simp [hb]⟩

theorem stream_done {task : TaskRequest} {ticks : ℕ} {r : Except String (List TaskEvent)}
    (h : Along (LdpAdapter.stream parseRfc3339 hmac config url task ticks) tr (done r))
    (he : Evaluated response now tr) :
    Decides response (fun output provenance =>
        streamedStatus parseRfc3339 config task.contract output provenance now)
      fun status => ∃ events, r = .ok events ∧ EndsWith events status := by
  rcases h.of_bind_done with ⟨e, hinvoke, _⟩ | ⟨handle, tr₁, tr₂, hinvoke, hpolls, htr⟩
  · exact (not_evaluated (fun ev hev => (invoke_along hinvoke ev hev).1) he).elim
  · rw [htr, evaluated_append fun ev hev => (invoke_along hinvoke ev hev).1] at he
    exact pollUpdates_done hpolls he

end Paths
section Runs
variable {parseRfc3339 : String → Option ℤ} {hmac : Hmac} {config : LdpAdapterConfig}
  {k k₁ : AdapterConfig} {j : ℕ} {url : String} {response : LdpEnvelope} {now : ℤ}
  {r : Except String Report}

/-- What a status call makes of the result it was answered with, whatever contract
it finds. -/
theorem status_answered (h : Adapting parseRfc3339 hmac config k) {taskId : String}
    (hcall : k.calls[j]? = some (.status url taskId, done r))
    (he : Evaluated response now (traceOf j k.log)) {id : String} {output : Value}
    {provenance : Provenance} (hbody : response.body = .taskResult id output provenance) :
    ∃ found, ⟨.getContract taskId, found⟩ ∈ traceOf j k.log ∧
      r = .ok (.status (polledStatus parseRfc3339 config found output provenance now)) := by
  have hpath := h.follows.along _ _ _ hcall
  obtain ⟨r', hstatus, hr⟩ := hpath.of_bind_map
  obtain ⟨found, hasked, hverdict⟩ := (status_done hstatus he).1 id output provenance hbody
  exact ⟨found, hasked, by rw [hr, hverdict]; rfl⟩

/-- The status call of a submitted task judges by the contract of that task. -/
theorem status_reported (h : Adapting parseRfc3339 hmac config k) (hfresh : FreshIds k)
    (h₁ : Adapting parseRfc3339 hmac config k₁)
    (hto : Moves ClientCall.Meaning (reported parseRfc3339 hmac config) k₁ k)
    {task : TaskRequest} {handle : TaskHandle}
    (hsubmitted : Submitted hmac config k₁ task handle) (hj : k₁.calls.length ≤ j)
    (hcall : k.calls[j]? = some (.status url handle.taskId, done r))
    (he : Evaluated response now (traceOf j k.log)) :
    Decides response (fun output provenance =>
        polledStatus parseRfc3339 config task.contract output provenance now)
      fun status => r = .ok (.status status) := by
  constructor
  · intro id output provenance hbody
    obtain ⟨found, hasked, hverdict⟩ := status_answered h hcall he hbody
    rw [hverdict, contract_found h hfresh h₁ hto hsubmitted hj hasked]
  · intro id error hbody
    have hpath := h.follows.along _ _ _ hcall
    obtain ⟨r', hstatus, hr⟩ := hpath.of_bind_map
    rw [hr, (status_done hstatus he).2 id error hbody]
    rfl

/-- A stream judges by the contract it was started with. -/
theorem stream_reported (h : Adapting parseRfc3339 hmac config k) {task : TaskRequest} {ticks : ℕ}
    (hcall : k.calls[j]? = some (.stream url task ticks, done r))
    (he : Evaluated response now (traceOf j k.log)) :
    Decides response (fun output provenance =>
        streamedStatus parseRfc3339 config task.contract output provenance now)
      fun status => ∃ events, r = .ok (.events events) ∧ EndsWith events status := by
  have hpath := h.follows.along _ _ _ hcall
  obtain ⟨r', hstream, hr⟩ := hpath.of_bind_map
  refine (stream_done hstream he).imp ?_
  intro status hstatus
  obtain ⟨events, hevents, hends⟩ := hstatus
  exact ⟨events, by rw [hr, hevents]; rfl, hends⟩

/-- In a scene a poll, wherever it is, is answered with the reply. -/
theorem Scene.evaluates (scene : Scene) {s : ClientState} (n : ℕ)
    {ev : Event ClientCall ClientCall.Answer}
    (hat : (scene.played parseRfc3339 hmac config s).1[n]? = some ev) (hpoll : IsPoll ev.1) :
    Evaluated scene.reply scene.now (scene.played parseRfc3339 hmac config s).1 := by
  apply evaluated_of_polls
  · refine exec_events (P := fun ev : Event ClientCall ClientCall.Answer => IsPoll ev.1 →
      ∃ url message, ev = ⟨.sendMessage url message, .ok scene.reply⟩) ?_ _ _
    intro q s' hq
    cases q with
    | sendMessage url message =>
        obtain ⟨taskId, progress, text, hbody⟩ := hq
        refine ⟨url, message, ?_⟩
        simp [Scene.surroundings, hbody]
    | _ => exact hq.elim
  · intro a ha
    refine exec_events (P := fun ev : Event ClientCall ClientCall.Answer =>
      ∀ a, ev = ⟨.utcNow, a⟩ → a = scene.now) ?_ _ _ _ ha a rfl
    intro q s' a hq
    cases q with
    | utcNow =>
        cases hq
        rfl
    | _ => cases hq
  · exact ⟨ev, List.mem_of_getElem? hat, hpoll⟩

end Runs
end LdpProtocol.AdapterVerdicts
