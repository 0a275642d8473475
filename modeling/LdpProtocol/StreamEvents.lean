import LdpProtocol.AdapterVerdicts

/-!
# What a stream emits

A stream polls once per tick and emits the progress it is told of. A result, a failure
or an error of the transport ends it: it emits one event more and asks the peer nothing
again. What it has emitted at some moment stays the beginning of what it emits, however
long the peer goes on.
-/
namespace LdpProtocol.StreamEvents
open InteractivePrograms InterferedRuns ConcurrentCalls
open InteractivePrograms.Program (call_bind pure_eq ask_bind pure_bind_eq uses_pure)
open JsonValues MessageTypes EnvelopeSigning SessionManager LdpAdapter AdapterRuns
open AdapterVerdicts
open ClientQuestions (completedEvent_uses)

/-- A response, or the text of a transport error. -/
abbrev PollAnswer := Except String LdpEnvelope

def pollAnswer : Event ClientCall ClientCall.Answer → Option PollAnswer
  | ⟨.sendMessage _ message, answer⟩ =>
      match message.body with
      | .taskUpdate _ _ _ => some answer
      | _ => none
  | _ => none

/-- The answers to the polls of a call, in their order. -/
def pollAnswers (tr : Trace) : List PollAnswer := tr.filterMap pollAnswer

/-- What a stream emits for an answer and goes on. -/
def progressOf : PollAnswer → Option TaskEvent
  | .ok envelope =>
      match envelope.body with
      | .taskUpdate _ progress message => some (.progress (message.getD "") progress)
      | _ => none
  | .error _ => none

/-- A result, a failure or an error. -/
def Ends : PollAnswer → Prop
  | .ok envelope =>
      match envelope.body with
      | .taskResult _ _ _ => True
      | .taskFailed _ _ => True
      | _ => False
  | .error _ => True

/-- How an answer ends its stream; a result is judged by the contract at that time. -/
def endStatus (parseRfc3339 : String → Option ℤ) (config : LdpAdapterConfig)
    (contract : Option DelegationContract) (now : ℤ) : PollAnswer → Option TaskStatus
  | .ok envelope =>
      match envelope.body with
      | .taskResult _ output provenance =>
          some (streamedStatus parseRfc3339 config contract output provenance now)
      | .taskFailed _ error => some (.failed error)
      | _ => none
  | .error e => some (.failed (LdpError.transport "STREAM_ERROR" e))

/-- No entry comes after one that ends the list. -/
def Stops {α : Type} (Ends : α → Prop) (l : List α) : Prop :=
  ∀ before a after, l = before ++ a :: after → Ends a → after = []

section Lists
variable {α : Type} {Ends : α → Prop} {a : α} {l : List α}

theorem stops_nil : Stops Ends [] := by
  intro before a after h
  simp at h

theorem stops_single : Stops Ends [a] := by
  intro before b after h _
  have hlen := congrArg List.length h
  simp only [List.length_cons, List.length_nil, List.length_append] at hlen
  exact List.length_eq_zero_iff.mp (by omega)

theorem stops_cons (ha : ¬ Ends a) (h : Stops Ends l) : Stops Ends (a :: l) := by
  intro before b after hsplit hb
  cases before with
  | nil =>
      cases hsplit
      exact (ha hb).elim
  | cons first before =>
      cases hsplit
      exact h before b after rfl hb

/-- Either no entry ends the list or the last one does, and it alone. -/
theorem Stops.cases (h : Stops Ends l) : (∀ a ∈ l, ¬ Ends a) ∨
    ∃ before last, l = before ++ [last] ∧ (∀ a ∈ before, ¬ Ends a) ∧ Ends last := by
  by_cases hends : ∃ a ∈ l, Ends a
  · obtain ⟨a, hin, ha⟩ := hends
    obtain ⟨before, after, hsplit⟩ := List.append_of_mem hin
    have hafter := h before a after hsplit ha
    rw [hafter] at hsplit
    refine .inr ⟨before, a, hsplit, ?_, ha⟩
    intro b hb hbends
    obtain ⟨front, back, hbefore⟩ := List.append_of_mem hb
    rw [hbefore, List.append_assoc, List.cons_append] at hsplit
    have hback := h front b (back ++ [a]) hsplit hbends
    simp at hback
  · exact .inl fun a ha hend => hends ⟨a, ha, hend⟩

end Lists

section Answers
variable {tr tr₁ tr₂ : Trace} {a : PollAnswer}

theorem pollAnswers_append : pollAnswers (tr₁ ++ tr₂) = pollAnswers tr₁ ++ pollAnswers tr₂ :=
  List.filterMap_append

theorem pollAnswers_of_no_poll (h : ∀ ev ∈ tr, ¬ IsPoll ev.1) : pollAnswers tr = [] := by
  apply List.filterMap_eq_nil_iff.mpr
  intro ev hev
  have hnot := h ev hev
  obtain ⟨q, answer⟩ := ev
  cases q with
  | sendMessage url message =>
      unfold pollAnswer
      dsimp only
      split
      · next taskId progress text hbody => exact (hnot ⟨taskId, progress, text, hbody⟩).elim
      · rfl
  | _ => rfl

theorem progressOf_of_ends (h : Ends a) : progressOf a = none := by
  cases a with
  | error e => rfl
  | ok envelope =>
      unfold Ends at h
      unfold progressOf
      cases hb : envelope.body <;> simp_all

theorem ended_progressOf {event : TaskEvent} (h : progressOf a = some event) :
    ended event = none := by
  cases a with
  | error e => cases h
  | ok envelope =>
      unfold progressOf at h
      cases hb : envelope.body <;> simp only [hb, reduceCtorEq, Option.some.injEq] at h
      rw [← h]
      rfl

theorem filterMap_progressOf_cons (a : PollAnswer) (l : List PollAnswer) :
    (a :: l).filterMap progressOf = (progressOf a).toList ++ l.filterMap progressOf := by
  cases h : progressOf a with
  | none => rw [List.filterMap_cons_none h]; rfl
  | some event => rw [List.filterMap_cons_some h]; rfl

end Answers

/-- The clock reads this whenever it is asked after the last poll. -/
def ReadsAfterPolls (now : ℤ) (tr : Trace) : Prop :=
  ∃ front poll after, tr = front ++ poll :: after ∧ IsPoll poll.1 ∧
    ∀ ev ∈ after, ¬ IsPoll ev.1 ∧ ∀ b, ev = ⟨.utcNow, b⟩ → b = now

theorem ReadsAfterPolls.append {now : ℤ} {tr : Trace} (h : ReadsAfterPolls now tr)
    (more : Trace) : ReadsAfterPolls now (more ++ tr) := by
  obtain ⟨front, poll, after, htr, hpoll, hafter⟩ := h
  exact ⟨more ++ front, poll, after, by rw [htr, List.append_assoc], hpoll, hafter⟩

section Emissions
variable (parseRfc3339 : String → Option ℤ) (config : LdpAdapterConfig)
  (contract : Option DelegationContract)

/-- The events of a stream: the progress it was told of, in order, and then the event
that its first ending answer decides, if there was one; else it has used its ticks. -/
def Emits (tr : Trace) (ticks : ℕ) (events : List TaskEvent) : Prop :=
  ((∀ a ∈ pollAnswers tr, ¬ Ends a) ∧ (pollAnswers tr).length = ticks ∧
    events = (pollAnswers tr).filterMap progressOf) ∨
  ∃ before last event now, pollAnswers tr = before ++ [last] ∧ (∀ a ∈ before, ¬ Ends a) ∧
    Ends last ∧ events = before.filterMap progressOf ++ [event] ∧ ReadsAfterPolls now tr ∧
    ended event = endStatus parseRfc3339 config contract now last

end Emissions

section Composition
variable {parseRfc3339 : String → Option ℤ} {config : LdpAdapterConfig}
  {contract : Option DelegationContract} {ticks : ℕ} {front tr : Trace} {a : PollAnswer}
  {events : List TaskEvent}

/-- What is asked before the first poll decides nothing. -/
theorem Emits.append_left (h : Emits parseRfc3339 config contract tr ticks events)
    (hfront : pollAnswers front = []) :
    Emits parseRfc3339 config contract (front ++ tr) ticks events := by
  unfold Emits
  rw [pollAnswers_append, hfront, List.nil_append]
  rcases h with hall | ⟨before, last, event, now, hlater, hbefore, hlast, hevents, hreads, hended⟩
  · exact .inl hall
  · exact .inr ⟨before, last, event, now, hlater, hbefore, hlast, hevents, hreads.append front,
      hended⟩

/-- A poll more in front, the answer to which is no end, adds its progress. -/
theorem Emits.cons (h : Emits parseRfc3339 config contract tr ticks events)
    (hanswers : pollAnswers (front ++ tr) = a :: pollAnswers tr) (hends : ¬ Ends a) :
    Emits parseRfc3339 config contract (front ++ tr) (ticks + 1)
      ((progressOf a).toList ++ events) := by
  unfold Emits
  rw [hanswers]
  rcases h with ⟨hnone, hlen, hevents⟩ |
    ⟨before, last, event, now, hlater, hbefore, hlast, hevents, hreads, hended⟩
  · left
    rw [filterMap_progressOf_cons, hevents]
    exact ⟨List.forall_mem_cons.mpr ⟨hends, hnone⟩, congrArg Nat.succ hlen, rfl⟩
  · right
    refine ⟨a :: before, last, event, now, by rw [hlater]; rfl,
      List.forall_mem_cons.mpr ⟨hends, hbefore⟩, hlast, ?_, hreads.append front, hended⟩
    rw [filterMap_progressOf_cons, hevents, List.append_assoc]

end Composition

section Steps
variable {parseRfc3339 : String → Option ℤ} {hmac : Hmac} {config : LdpAdapterConfig}
  {url taskId : String} {contract : Option DelegationContract} {ticks : ℕ} {tr : Trace}
  {a : PollAnswer}

abbrev NeverPolls {α : Type} (p : ClientProgram α) : Prop :=
  p.Uses (fun _ _ => True) fun q => ¬ IsPoll q

/-- What a stream does with the answer to a poll. -/
def afterPoll (parseRfc3339 : String → Option ℤ) (hmac : Hmac) (config : LdpAdapterConfig)
    (url taskId : String) (contract : Option DelegationContract) (ticks : ℕ) :
    PollAnswer → ClientProgram (List TaskEvent)
  | .ok envelope =>
      match envelope.body with
      | .taskUpdate _ progress message => do
          let events ← pollUpdates parseRfc3339 hmac config url taskId contract ticks
          pure (.progress (message.getD "") progress :: events)
      | .taskResult _ output provenance => do
          let event ← completedEvent parseRfc3339 config contract output (received provenance)
          pure [event]
      | .taskFailed _ error => pure [.failed error]
      | _ => pollUpdates parseRfc3339 hmac config url taskId contract ticks
  | .error e => pure [.failed (LdpError.transport "STREAM_ERROR" e)]

theorem pollUpdates_succ :
    pollUpdates parseRfc3339 hmac config url taskId contract (ticks + 1) =
      statusQuery config url taskId >>= fun query =>
        SessionManager.sendMessage url (signIfConfigured hmac config.signingSecret query) >>=
          afterPoll parseRfc3339 hmac config url taskId contract ticks := rfl

/-- An answer that does not end the stream adds its progress in front of the rest. -/
theorem afterPoll_of_not_ends (h : ¬ Ends a) :
    afterPoll parseRfc3339 hmac config url taskId contract ticks a =
      pollUpdates parseRfc3339 hmac config url taskId contract ticks >>= fun events =>
        .pure ((progressOf a).toList ++ events) := by
  cases a with
  | error e => exact (h trivial).elim
  | ok envelope =>
      unfold Ends at h
      unfold afterPoll progressOf
      cases hb : envelope.body with
      | taskUpdate id progress message =>
          simp only [hb]
          rfl
      | taskResult => exact (h (by simp [hb])).elim
      | taskFailed => exact (h (by simp [hb])).elim
      | _ =>
          simp only [hb]
          exact (Program.bind_pure _).symm

theorem completedEvent_total {output : Value} {provenance : Provenance} :
    (completedEvent parseRfc3339 config contract output provenance).Total := by
  cases contract with
  | none => exact Program.total_pure _
  | some contract =>
      refine Program.Total.bind ?_ fun _ => Program.total_pure _
      unfold validateContract deadlineViolations
      refine Program.Total.bind ?_ fun _ => Program.total_pure _
      split
      · exact (Program.total_call _).bind fun _ => Program.total_pure _
      · exact Program.total_pure _

/-- The clock is read once at most. -/
theorem completedEvent_reads {output : Value} {provenance : Provenance}
    {p : ClientProgram TaskEvent}
    (h : Along (completedEvent parseRfc3339 config contract output provenance) tr p) :
    ∃ now, ∀ b, ⟨.utcNow, b⟩ ∈ tr → b = now := by
  have hnone : tr = [] → ∃ now : ℤ, ∀ b, ⟨.utcNow, b⟩ ∈ tr → b = now := by
    intro htr
    exact ⟨0, by simp [htr]⟩
  cases contract with
  | none => exact hnone (along_pure.mp h).1
  | some contract =>
      unfold completedEvent validateContract deadlineViolations SessionManager.utcNow at h
      dsimp only at h
      split at h
      · simp only [call_bind, pure_eq, ask_bind, pure_bind_eq] at h
        rcases along_ask.mp h with ⟨htr, _⟩ | ⟨now, rest, htr, hrest⟩
        · exact hnone htr
        · rw [(along_pure.mp hrest).1] at htr
          refine ⟨now, ?_⟩
          intro b hb
          rw [htr, List.mem_singleton] at hb
          cases hb
          rfl
      · exact hnone (along_pure.mp h).1

/-- After an ending answer one event is left to come, which the answer decides with the
clock, and which no failure and no poll can precede. -/
theorem afterPoll_of_ends (parseRfc3339 : String → Option ℤ) (hmac : Hmac)
    (config : LdpAdapterConfig) (url taskId : String) (contract : Option DelegationContract)
    (ticks : ℕ) (h : Ends a) : ∃ ending : ClientProgram TaskEvent,
    afterPoll parseRfc3339 hmac config url taskId contract ticks a =
      ending >>= (fun event => .pure [event]) ∧
    NeverPolls ending ∧ ending.Total ∧
    ∀ tr r, Along ending tr (done r) → ∃ now event, (∀ b, ⟨.utcNow, b⟩ ∈ tr → b = now) ∧
      r = .ok event ∧ ended event = endStatus parseRfc3339 config contract now a := by
  cases a with
  | error e =>
      refine ⟨.pure (.failed (LdpError.transport "STREAM_ERROR" e)), rfl, uses_pure _, trivial, ?_⟩
      intro tr r hpath
      obtain ⟨htr, hr⟩ := along_pure_done.mp hpath
      exact ⟨0, _, by simp [htr], hr, rfl⟩
  | ok envelope =>
      unfold Ends at h
      unfold afterPoll endStatus
      cases hb : envelope.body with
      | taskResult id output provenance =>
          simp only [hb]
          refine ⟨completedEvent parseRfc3339 config contract output (received provenance), rfl,
            completedEvent_uses not_false contract output _, completedEvent_total, ?_⟩
          intro tr r hpath
          obtain ⟨now, hclock⟩ := completedEvent_reads hpath
          obtain ⟨event, hr, hended⟩ := completedEvent_done hpath hclock
          exact ⟨now, event, hclock, hr, hended⟩
      | taskFailed id error =>
          simp only [hb]
          refine ⟨.pure (.failed error), rfl, uses_pure _, trivial, ?_⟩
          intro tr r hpath
          obtain ⟨htr, hr⟩ := along_pure_done.mp hpath
          exact ⟨0, _, by simp [htr], hr, rfl⟩
      | _ => simp only [hb] at h

/-- A poll is a query that is drawn up first and then sent. -/
theorem pollUpdates_polled {p : ClientProgram (List TaskEvent)}
    (h : Along (pollUpdates parseRfc3339 hmac config url taskId contract (ticks + 1)) tr p) :
    (∀ ev ∈ tr, ¬ IsPoll ev.1) ∧ (∀ r, p ≠ done r) ∨
      ∃ front poll answer rest, tr = front ++ poll :: rest ∧ (∀ ev ∈ front, ¬ IsPoll ev.1) ∧
        IsPoll poll.1 ∧ pollAnswer poll = some answer ∧
        Along (afterPoll parseRfc3339 hmac config url taskId contract ticks answer) rest p := by
  rw [pollUpdates_succ] at h
  unfold statusQuery newEnvelope SessionManager.newV4 SessionManager.utcNowRfc3339
    SessionManager.sendMessage at h
  simp only [call_bind, pure_eq, ask_bind, pure_bind_eq] at h
  have hnot : ∀ {q : ClientCall} {next : q.Answer → ClientProgram (List TaskEvent)} (r),
      Program.ask q next ≠ done r := by
    intro q next r hdone
    cases r <;> cases hdone
  rcases along_ask.mp h with ⟨htr, hp⟩ | ⟨messageId, tr₁, htr, h₁⟩
  · refine .inl ⟨by simp [htr], ?_⟩
    rw [hp]
    exact hnot
  · rcases along_ask.mp h₁ with ⟨htr₁, hp⟩ | ⟨timestamp, tr₂, htr₁, h₂⟩
    · refine .inl ⟨by simp [htr, htr₁, IsPoll], ?_⟩
      rw [hp]
      exact hnot
    · rcases along_ask.mp h₂ with ⟨htr₂, hp⟩ | ⟨answer, rest, htr₂, h₃⟩
      · refine .inl ⟨by simp [htr, htr₁, htr₂, IsPoll], ?_⟩
        rw [hp]
        exact hnot
      · refine .inr ⟨[⟨.newV4, messageId⟩, ⟨.utcNowRfc3339, timestamp⟩], _, answer, rest,
          by rw [htr, htr₁, htr₂]; rfl, by simp [IsPoll], ?_, ?_, h₃⟩
        · exact ⟨taskId, none, some "status_query", by rw [signIfConfigured_body]; rfl⟩
        · simp only [pollAnswer, signIfConfigured_body]
          rfl

end Steps

section Loop
variable {parseRfc3339 : String → Option ℤ} {hmac : Hmac} {config : LdpAdapterConfig}
  {url taskId : String} {contract : Option DelegationContract} {ticks : ℕ} {tr : Trace}

theorem pollAnswers_of_poll {front : Trace} {poll : Event ClientCall ClientCall.Answer}
    {answer : PollAnswer} (hfront : ∀ ev ∈ front, ¬ IsPoll ev.1)
    (hanswer : pollAnswer poll = some answer) (rest : Trace) :
    pollAnswers (front ++ poll :: rest) = answer :: pollAnswers rest := by
  rw [pollAnswers_append, pollAnswers_of_no_poll hfront, List.nil_append]
  exact List.filterMap_cons_some hanswer

/-- The polls of a stream, wherever it has come to: no more of them than ticks, and none
after an answer that ends it. Once it polls, what remains of it cannot fail. -/
structure PollsUntilEnd (tr : Trace) (ticks : ℕ) {α : Type} (p : ClientProgram α) : Prop where
  ticks : (pollAnswers tr).length ≤ ticks
  stops : Stops Ends (pollAnswers tr)
  ended : ∀ a ∈ pollAnswers tr, Ends a → NeverPolls p
  total : pollAnswers tr ≠ [] → p.Total

theorem PollsUntilEnd.of_no_poll {α : Type} {p : ClientProgram α} (h : pollAnswers tr = []) :
    PollsUntilEnd tr ticks p := by
  constructor
  · simp [h]
  · rw [h]
    exact stops_nil
  · simp [h]
  · simp [h]

theorem PollsUntilEnd.append_left {α : Type} {front : Trace} {p : ClientProgram α}
    (h : PollsUntilEnd tr ticks p) (hfront : pollAnswers front = []) :
    PollsUntilEnd (front ++ tr) ticks p := by
  have hsame : pollAnswers (front ++ tr) = pollAnswers tr := by
    rw [pollAnswers_append, hfront, List.nil_append]
  exact ⟨hsame ▸ h.ticks, hsame ▸ h.stops, hsame ▸ h.ended, hsame ▸ h.total⟩

/-- A poll more in front, the answer to which is no end. -/
theorem PollsUntilEnd.cons {α : Type} {rest : Trace} {answer : PollAnswer}
    {p : ClientProgram α} (h : PollsUntilEnd rest ticks p)
    (hanswers : pollAnswers tr = answer :: pollAnswers rest) (hends : ¬ Ends answer)
    (htotal : p.Total) : PollsUntilEnd tr (ticks + 1) p := by
  constructor
  · rw [hanswers, List.length_cons]
    exact Nat.succ_le_succ h.ticks
  · rw [hanswers]
    exact stops_cons hends h.stops
  · intro a ha hend
    rw [hanswers] at ha
    rcases List.mem_cons.mp ha with ha | ha
    · rw [ha] at hend
      exact (hends hend).elim
    · exact h.ended a ha hend
  · exact fun _ => htotal

/-- A poll that is answered with an end is the last one. -/
theorem PollsUntilEnd.single {α : Type} {answer : PollAnswer} {p : ClientProgram α}
    (hanswers : pollAnswers tr = [answer]) (hnever : NeverPolls p) (htotal : p.Total) :
    PollsUntilEnd tr (ticks + 1) p := by
  refine ⟨by simp [hanswers], hanswers ▸ stops_single, ?_, fun _ => htotal⟩
  intro a _ _
  exact hnever

/-- Renaming the result of what remains changes nothing of this. -/
theorem PollsUntilEnd.map {α β : Type} {p : ClientProgram α} (h : PollsUntilEnd tr ticks p)
    (g : α → β) : PollsUntilEnd tr ticks (p >>= fun a => .pure (g a)) := by
  refine ⟨h.ticks, h.stops, ?_, ?_⟩
  · intro a ha hends
    exact (h.ended a ha hends).bind fun _ => uses_pure _
  · intro hpolled
    exact (h.total hpolled).bind fun _ => Program.total_pure _

theorem pollUpdates_total :
    (pollUpdates parseRfc3339 hmac config url taskId contract ticks).Total := by
  induction ticks with
  | zero => exact Program.total_pure _
  | succ ticks ih =>
      rw [pollUpdates_succ]
      unfold statusQuery newEnvelope
      refine Program.Total.bind ?_ ?_
      · exact (Program.total_call _).bind fun _ => (Program.total_call _).bind fun _ =>
          Program.total_pure _
      · intro query
        refine (Program.total_call _).bind ?_
        intro answer
        by_cases hends : Ends answer
        · obtain ⟨ending, hafter, _, htotal, _⟩ := afterPoll_of_ends parseRfc3339
            hmac config url taskId contract ticks hends
          rw [hafter]
          exact htotal.bind fun _ => Program.total_pure _
        · rw [afterPoll_of_not_ends hends]
          exact ih.bind fun _ => Program.total_pure _

/-- The loop, step by step: an answer that does not end it leaves the rest of the loop,
and any other leaves a single event. -/
theorem pollUpdates_along {p : ClientProgram (List TaskEvent)}
    (h : Along (pollUpdates parseRfc3339 hmac config url taskId contract ticks) tr p) :
    PollsUntilEnd tr ticks p := by
  have htotal := h.total_rest pollUpdates_total
  induction ticks generalizing tr p with
  | zero =>
      apply PollsUntilEnd.of_no_poll
      rw [(along_pure.mp h).1]
      rfl
  | succ ticks ih =>
      rcases pollUpdates_polled h with ⟨hnone, _⟩ | ⟨front, poll, answer, rest, htr, hfront, _,
        hanswer, hrest⟩
      · exact .of_no_poll (pollAnswers_of_no_poll hnone)
      · have hanswers := pollAnswers_of_poll hfront hanswer rest
        rw [← htr] at hanswers
        by_cases hends : Ends answer
        · obtain ⟨ending, hafter, hnever, _⟩ := afterPoll_of_ends parseRfc3339
            hmac config url taskId contract ticks hends
          rw [hafter] at hrest
          obtain ⟨p', hp', hp⟩ := hrest.of_map
          have hlast : pollAnswers tr = [answer] := by
            rw [hanswers, pollAnswers_of_no_poll (hp'.uses hnever)]
          refine .single hlast ?_ htotal
          rw [hp]
          exact (hp'.uses_rest hnever).bind fun _ => uses_pure _
        · rw [afterPoll_of_not_ends hends] at hrest
          obtain ⟨p', hp', hp⟩ := hrest.of_map
          have hlater := ih hp' (hp'.total_rest pollUpdates_total)
          have hmapped := hlater.map fun events => (progressOf answer).toList ++ events
          rw [← hp] at hmapped
          exact hmapped.cons hanswers hends htotal

/-- A loop that has come to its end has emitted what its answers say. -/
theorem pollUpdates_emits {r : Except String (List TaskEvent)}
    (h : Along (pollUpdates parseRfc3339 hmac config url taskId contract ticks) tr (done r)) :
    ∃ events, r = .ok events ∧ Emits parseRfc3339 config contract tr ticks events := by
  induction ticks generalizing tr r with
  | zero =>
      obtain ⟨htr, hr⟩ := along_pure_done.mp h
      rw [htr]
      exact ⟨[], hr, .inl ⟨by simp [pollAnswers], rfl, rfl⟩⟩
  | succ ticks ih =>
      rcases pollUpdates_polled h with ⟨_, hpending⟩ | ⟨front, poll, answer, rest, htr, hfront,
        hpoll, hanswer, hrest⟩
      · exact (hpending r rfl).elim
      · have hanswers := pollAnswers_of_poll hfront hanswer rest
        rw [← htr] at hanswers
        by_cases hends : Ends answer
        · obtain ⟨ending, hafter, hnever, _, hending⟩ := afterPoll_of_ends parseRfc3339
            hmac config url taskId contract ticks hends
          rw [hafter] at hrest
          obtain ⟨r', hpath, hr⟩ := hrest.of_bind_map
          obtain ⟨now, event, hclock, hr', hended⟩ := hending rest r' hpath
          have hnone := hpath.uses hnever
          refine ⟨[event], by rw [hr, hr']; rfl, .inr ⟨[], answer, event, now, ?_, by simp, hends,
            rfl, ⟨front, poll, rest, htr, hpoll, ?_⟩, hended⟩⟩
          · rw [hanswers, pollAnswers_of_no_poll hnone]
            rfl
          · intro ev hev
            refine ⟨hnone ev hev, ?_⟩
            intro b hb
            rw [hb] at hev
            exact hclock b hev
        · rw [afterPoll_of_not_ends hends] at hrest
          obtain ⟨r', hpath, hr⟩ := hrest.of_bind_map
          obtain ⟨events, hr', hemits⟩ := ih hpath
          refine ⟨(progressOf answer).toList ++ events, by rw [hr, hr']; rfl, ?_⟩
          rw [htr, List.append_cons] at hanswers ⊢
          exact hemits.cons hanswers hends

end Loop

section Streams
variable {parseRfc3339 : String → Option ℤ} {hmac : Hmac} {config : LdpAdapterConfig}
  {url : String} {task : TaskRequest} {ticks : ℕ} {tr : Trace}

/-- The submission in front polls for nothing. -/
theorem pollAnswers_of_invoke {p : ClientProgram TaskHandle}
    (h : Along (LdpAdapter.invoke hmac config url task) tr p) : pollAnswers tr = [] :=
  pollAnswers_of_no_poll fun ev hev => (invoke_along h ev hev).1

theorem stream_along {p : ClientProgram (List TaskEvent)}
    (h : Along (LdpAdapter.stream parseRfc3339 hmac config url task ticks) tr p) :
    PollsUntilEnd tr ticks p := by
  rcases h.of_bind with ⟨p', hinvoke, _⟩ | ⟨handle, tr₁, tr₂, hinvoke, hpolls, htr⟩
  · exact .of_no_poll (pollAnswers_of_invoke hinvoke)
  · rw [htr]
    exact (pollUpdates_along hpolls).append_left (pollAnswers_of_invoke hinvoke)

theorem stream_emits {r : Except String (List TaskEvent)}
    (h : Along (LdpAdapter.stream parseRfc3339 hmac config url task ticks) tr (done r)) :
    (∃ e, r = .error e ∧ pollAnswers tr = []) ∨
      ∃ events, r = .ok events ∧ Emits parseRfc3339 config task.contract tr ticks events := by
  rcases h.of_bind_done with ⟨e, hinvoke, hr⟩ | ⟨handle, tr₁, tr₂, hinvoke, hpolls, htr⟩
  · exact .inl ⟨e, hr, pollAnswers_of_invoke hinvoke⟩
  · obtain ⟨events, hr, hemits⟩ := pollUpdates_emits hpolls
    rw [htr]
    exact .inr ⟨events, hr, hemits.append_left (pollAnswers_of_invoke hinvoke)⟩

end Streams

section Emitted
variable {parseRfc3339 : String → Option ℤ} {config : LdpAdapterConfig}
  {contract : Option DelegationContract} {ticks : ℕ} {tr tr₁ : Trace} {events : List TaskEvent}

/-- The progress of an earlier moment is the beginning of what is emitted. -/
theorem Emits.starts_with (h : Emits parseRfc3339 config contract tr ticks events)
    (hmore : tr₁ <+: tr) : (pollAnswers tr₁).filterMap progressOf <+: events := by
  obtain ⟨more, htr⟩ := hmore
  have hanswers : pollAnswers tr₁ ++ pollAnswers more = pollAnswers tr := by
    rw [← pollAnswers_append, htr]
  have hprogress : (pollAnswers tr).filterMap progressOf <+: events := by
    rcases h with ⟨_, _, hevents⟩ | ⟨before, last, event, now, hall, _, hlast, hevents, _⟩
    · rw [hevents]
    · rw [hall, hevents, List.filterMap_append, List.filterMap_cons_none (progressOf_of_ends hlast),
        List.filterMap_nil, List.append_nil]
      exact List.prefix_append _ _
  refine List.IsPrefix.trans ?_ hprogress
  rw [← hanswers, List.filterMap_append]
  exact List.prefix_append _ _

theorem endStatus_isSome_iff (now : ℤ) (a : PollAnswer) :
    (endStatus parseRfc3339 config contract now a).isSome = true ↔ Ends a := by
  cases a with
  | error e => simp [endStatus, Ends]
  | ok envelope =>
      unfold endStatus Ends
      cases hb : envelope.body <;> simp [hb]

theorem not_ended_of_progress {l : List PollAnswer} {event : TaskEvent}
    (h : event ∈ l.filterMap progressOf) : ended event = none := by
  obtain ⟨a, _, ha⟩ := List.mem_filterMap.mp h
  exact ended_progressOf ha

/-- A terminal event is emitted exactly if an answer ended the stream. -/
theorem Emits.ended_iff (h : Emits parseRfc3339 config contract tr ticks events) :
    (∃ event ∈ events, (ended event).isSome = true) ↔ ∃ a ∈ pollAnswers tr, Ends a := by
  rcases h with ⟨hnone, _, hevents⟩ | ⟨before, last, event, now, hall, _, hlast, hevents, _, hended⟩
  · constructor
    · intro hterminal
      obtain ⟨event, hin, hsome⟩ := hterminal
      rw [hevents] at hin
      rw [not_ended_of_progress hin] at hsome
      cases hsome
    · intro hends
      obtain ⟨a, ha, hend⟩ := hends
      exact (hnone a ha hend).elim
  · constructor
    · intro _
      exact ⟨last, by rw [hall]; simp, hlast⟩
    · intro _
      refine ⟨event, by rw [hevents]; simp, ?_⟩
      rw [hended, endStatus_isSome_iff]
      exact hlast

theorem range_map_of_answers {answers : ℕ → PollAnswer} {l : List PollAnswer}
    (h : ∀ i a, l[i]? = some a → a = answers i) : l = (List.range l.length).map answers := by
  apply List.ext_getElem
  · simp
  · intro i hi _
    rw [List.getElem_map, List.getElem_range]
    exact h i _ (List.getElem?_eq_getElem hi)

/-- What a stream emits when its polls are answered from one sequence, however long
that goes on: its progress up to the ticks or to the first ending answer. -/
theorem Emits.of_sequence (h : Emits parseRfc3339 config contract tr ticks events)
    (hticks : (pollAnswers tr).length ≤ ticks) (answers : ℕ → PollAnswer)
    (hanswers : ∀ i a, (pollAnswers tr)[i]? = some a → a = answers i) (n : ℕ)
    (hbefore : ∀ i < n, ¬ Ends (answers i)) :
    (ticks ≤ n → events = ((List.range ticks).map answers).filterMap progressOf) ∧
    (n < ticks → Ends (answers n) → (pollAnswers tr).length = n + 1 ∧ ∃ event now,
      events = ((List.range n).map answers).filterMap progressOf ++ [event] ∧
      ReadsAfterPolls now tr ∧
      ended event = endStatus parseRfc3339 config contract now (answers n)) := by
  have hrange := range_map_of_answers hanswers
  rcases h with ⟨hnone, hlen, hevents⟩ | ⟨before, last, event, now, hall, hfree, hlast, hevents,
    hreads, hended⟩
  · rw [hlen] at hrange
    constructor
    · intro _
      rw [hevents, hrange]
    · intro hlt hends
      refine (hnone (answers n) ?_ hends).elim
      rw [hrange]
      exact List.mem_map.mpr ⟨n, List.mem_range.mpr hlt, rfl⟩
  · have hat : last = answers before.length :=
      hanswers before.length last (by rw [hall]; simp)
    have hlen : (pollAnswers tr).length = before.length + 1 := by rw [hall]; simp
    have hle : n ≤ before.length := by
      by_contra hlt
      exact hbefore before.length (by omega) (hat ▸ hlast)
    have hfront : before = (List.range before.length).map answers := by
      apply range_map_of_answers
      intro i a hi
      apply hanswers i a
      rw [hall, List.getElem?_append_left (List.getElem?_eq_some_iff.mp hi).1]
      exact hi
    constructor
    · intro hshort
      omega
    · intro _ hends
      -- an ending answer before the last one is impossible, so `n` is where it stopped
      have hn : n = before.length := by
        by_contra hne
        refine hfree (answers n) ?_ hends
        rw [hfront]
        exact List.mem_map.mpr ⟨n, List.mem_range.mpr (by omega), rfl⟩
      rw [hn, ← hfront, ← hat]
      exact ⟨hlen, event, now, hevents, hreads, hended⟩

end Emitted

/-- At every moment of every run a stream has sent one poll a tick at most, the last of
which alone may have been answered with an end: then it never polls again and cannot
fail. When it is over, it has emitted one progress event for each update it was told
of, in order, and one event more exactly if an answer ended it, the one which that
answer decides. What it was told of by an earlier moment is the beginning of that, and
so a peer that goes on without end is followed as far as the ticks go. -/
theorem stream_disciplined (parseRfc3339 : String → Option ℤ) (hmac : Hmac)
    (config : LdpAdapterConfig) (k : AdapterConfig) (h : Adapting parseRfc3339 hmac config k)
    (j : ℕ) (url : String) (task : TaskRequest) (ticks : ℕ) (p : ClientProgram Report)
    (hcall : k.calls[j]? = some (.stream url task ticks, p)) :
    PollsUntilEnd (traceOf j k.log) ticks p ∧
    (∀ r, p = done r → (∃ e, r = .error e ∧ pollAnswers (traceOf j k.log) = []) ∨
      ∃ events, r = .ok (.events events) ∧
        Emits parseRfc3339 config task.contract (traceOf j k.log) ticks events ∧
        ((∃ event ∈ events, (ended event).isSome = true) ↔
          ∃ a ∈ pollAnswers (traceOf j k.log), Ends a)) ∧
    (∀ k' events, Moves ClientCall.Meaning (reported parseRfc3339 hmac config) k k' →
      k'.calls[j]? = some (.stream url task ticks, done (.ok (.events events))) →
      (pollAnswers (traceOf j k.log)).filterMap progressOf <+: events) ∧
    ∀ (answers : ℕ → PollAnswer) (n : ℕ) (events : List TaskEvent),
      p = done (.ok (.events events)) →
      (∀ i a, (pollAnswers (traceOf j k.log))[i]? = some a → a = answers i) →
      (∀ i < n, ¬ Ends (answers i)) →
      (ticks ≤ n → events = ((List.range ticks).map answers).filterMap progressOf) ∧
      (n < ticks → Ends (answers n) → (pollAnswers (traceOf j k.log)).length = n + 1 ∧
        ∃ event now, events = ((List.range n).map answers).filterMap progressOf ++ [event] ∧
          ReadsAfterPolls now (traceOf j k.log) ∧
          ended event = endStatus parseRfc3339 config task.contract now (answers n)) := by
  have hpolls : PollsUntilEnd (traceOf j k.log) ticks p := by
    obtain ⟨p', hstream, hp⟩ := (h.follows.along _ _ _ hcall).of_map
    rw [hp]
    exact (stream_along hstream).map Report.events
  have hemits : ∀ {k' : AdapterConfig} {r}, Adapting parseRfc3339 hmac config k' →
      k'.calls[j]? = some (.stream url task ticks, done r) →
      (∃ e, r = .error e ∧ pollAnswers (traceOf j k'.log) = []) ∨
        ∃ events, r = .ok (.events events) ∧
          Emits parseRfc3339 config task.contract (traceOf j k'.log) ticks events := by
    intro k' r h' hdone
    obtain ⟨r', hstream, hr⟩ := (h'.follows.along _ _ _ hdone).of_bind_map
    rcases stream_emits hstream with ⟨e, hr', hnone⟩ | ⟨events, hr', hevents⟩
    · exact .inl ⟨e, by rw [hr, hr']; rfl, hnone⟩
    · exact .inr ⟨events, by rw [hr, hr']; rfl, hevents⟩
  have hevents : ∀ {k' : AdapterConfig} {events}, Adapting parseRfc3339 hmac config k' →
      k'.calls[j]? = some (.stream url task ticks, done (.ok (.events events))) →
      Emits parseRfc3339 config task.contract (traceOf j k'.log) ticks events := by
    intro k' events h' hdone
    rcases hemits h' hdone with ⟨e, hr, _⟩ | ⟨events', hr, hemitted⟩
    · cases hr
    · cases hr
      exact hemitted
  refine ⟨hpolls, ?_, ?_, ?_⟩
  · intro r hp
    rw [hp] at hcall
    rcases hemits h hcall with hfailed | ⟨events, hr, hemitted⟩
    · exact .inl hfailed
    · exact .inr ⟨events, hr, hemitted, hemitted.ended_iff⟩
  · intro k' events hto hdone
    obtain ⟨more, hmore⟩ := hto.persist.1
    refine (hevents (h.trans hto) hdone).starts_with ⟨traceOf j more, ?_⟩
    rw [hmore, traceOf_append]
  · intro answers n events hp hanswers hbefore
    rw [hp] at hcall
    exact (hevents h hcall).of_sequence hpolls.ticks answers hanswers n hbefore

/-- A task of which the peer says that it failed. -/
def failingTask : TaskRequest := { skill := "echo", input := .null }

def failedReply : LdpEnvelope :=
  LdpEnvelope.new "m3" "t3" "" "ldp:b" "ldp:a"
    (.taskFailed "t1" (LdpError.runtime "TASK_FAILED" "boom")) .text

/-- Its stream emits the failure and nothing more, whatever ticks are left. -/
theorem stream_disciplined_failingTask : ∃ k events,
    Adapting (fun _ => none) submissionMac {} k ∧
    k.calls[0]? = some (.stream "u" failingTask 3, done (.ok (.events events))) ∧
    Emits (fun _ => none) {} none (traceOf 0 k.log) 3 events ∧
    events = [.failed (LdpError.runtime "TASK_FAILED" "boom")] := by
  have hidle : Adapting (fun _ => none) submissionMac {} (idle .empty) := .refl
  obtain ⟨k, h, _, _, _, hcalls, _⟩ := Scene.plays
    ⟨.stream "u" failingTask 3, "t1", 0, failedReply⟩ hidle drewFrom_idle List.not_mem_nil
  have hcall : k.calls[0]? = some (.stream "u" failingTask 3,
      done (.ok (.events [.failed (LdpError.runtime "TASK_FAILED" "boom")]))) := by
    rw [hcalls]
    rfl
  have hover := (stream_disciplined (fun _ => none) submissionMac {} k h 0 "u" failingTask 3 _
    hcall).2.1 _ rfl
  rcases hover with ⟨_, herror, _⟩ | ⟨events, hok, hemits, _⟩
  · cases herror
  · cases hok
    exact ⟨k, _, h, hcall, hemits, rfl⟩

end LdpProtocol.StreamEvents
