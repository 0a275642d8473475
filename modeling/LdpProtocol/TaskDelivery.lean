import LdpProtocol.AdapterVerdicts
import LdpProtocol.LinkedTasks

/-!
# A task between the Rust adapter and a Rust server

The adapter draws the id of a task, so the record at the server moves only through
its own messages. Once a submission has returned a handle, the record holds what
the handler returned; every status that is reported is the verdict on that output,
until a cancellation goes through, after which no status is reported any more.
-/
namespace LdpProtocol.TaskDelivery
open InteractivePrograms InterferedRuns LinkedParties Relation
open InteractivePrograms.Program (call_bind pure_eq ask_bind pure_bind_eq)
open JsonValues PayloadModes MessageTypes EnvelopeSigning SessionManager LdpAdapter
open ServerHandlers (LdpServer ServerState TaskRecord)
open LinkedSessionManager (Linked LinkedRun Peer Exchange Trace newEnvelope_run sendSigned_run
  ask_clock ask_newV4)
open LinkedTasks AdapterVerdicts

/-- The client's other tasks replace no contract that is stored. -/
def KeepContracts (tasks : ClientState → ClientState → Prop) : Prop :=
  ∀ s t, tasks s t → ∀ id contract, s.contracts.lookup id = some contract →
    t.contracts.lookup id = some contract

/-- What the server holds of a task that is the client's, and the contract the
client has stored for it. -/
structure Holds (w : Linked ServerState) (task : TaskRequest) (taskId : String)
    (stored : Option Value) : Prop where
  drawn : taskId ∈ w.drawn
  record : w.peer.tasks.lookup taskId = stored.map (LdpServer.completedRecord taskId task.skill)
  contract : ∀ c, task.contract = some c → w.client.contracts.lookup taskId = some c

section Custody
variable {tasks : ClientState → ClientState → Prop}
  {others : List String → ServerState → ServerState → Prop} {w w' : Linked ServerState}
  {task : TaskRequest} {taskId : String} {stored : Option Value}

theorem keepContracts_reaches (htasks : KeepContracts tasks) {s t : ClientState}
    (h : ReflTransGen tasks s t) {id : String} {contract : DelegationContract}
    (hs : s.contracts.lookup id = some contract) : t.contracts.lookup id = some contract := by
  induction h with
  | refl => exact hs
  | tail _ hstep ih => exact htasks _ _ hstep _ _ ih

/-- Neither the client's other tasks nor other parties touch the task. -/
theorem Holds.moved (h : Holds w task taskId stored) (htasks : KeepContracts tasks)
    (hothers : ∀ d s t, others d s t → Apart d s t) (hmoved : Moved tasks others w w') :
    Holds w' task taskId stored where
  drawn := hmoved.drawn h.drawn
  record := by
    rw [apart_lookup hothers h.drawn hmoved.peer]
    exact h.record
  contract := fun c hc => keepContracts_reaches htasks hmoved.client (h.contract c hc)

end Custody

section Judging
variable {parseRfc3339 : String → Option ℤ} {σ : Type} {serves : Peer σ} {faulty : Prop}
  {tasks : ClientState → ClientState → Prop} {others : List String → σ → σ → Prop}
  {w w' : Linked σ} {tr : Trace} {config : LdpAdapterConfig}

/-- Validating a contract reads the clock at most once. -/
theorem validateContract_run {α : Type} {contract : DelegationContract} {provenance : Provenance}
    {g : List String → α} {r : Except String α}
    (h : LinkedRun serves faulty tasks others
      (validateContract parseRfc3339 contract provenance >>= fun v => .pure (g v)) w tr w' r) :
    Moved tasks others w w' ∧
      ∃ now, r = .ok (g (violationsAt parseRfc3339 contract provenance now)) := by
  unfold validateContract deadlineViolations utcNow at h
  unfold violationsAt lateCodes
  cases hdeadline : contract.deadline.bind parseRfc3339 with
  | none =>
      rw [hdeadline] at h
      obtain ⟨hmoved, _, hr⟩ := moved_pure h
      exact ⟨hmoved, 0, hr⟩
  | some deadline =>
      rw [hdeadline] at h
      obtain ⟨now, v, tr₁, hv, hrun, _⟩ := ask_clock h
      obtain ⟨hmoved, _, hr⟩ := moved_pure hrun
      exact ⟨hv.trans hmoved, now, hr⟩

/-- What a polled result comes to, under the contract that is looked up. -/
theorem judge_run {taskId : String} {output : Value} {provenance : Provenance}
    {r : Except String TaskStatus}
    (h : LinkedRun serves faulty tasks others (do
      let contract ← getContract taskId
      match contract with
      | some contract =>
          applyContractValidation parseRfc3339 config contract output (received provenance)
      | none => pure (.completed (embedProvenance config output (received provenance))))
      w tr w' r) :
    ∃ v now, Moved tasks others w v ∧ Moved tasks others v w' ∧ r = .ok (polledStatus parseRfc3339
      config (v.client.contracts.lookup taskId) output provenance now) := by
  unfold getContract at h
  simp only [call_bind] at h
  obtain ⟨v, found, v', tr₁, hv, hm, hrun, _⟩ := moved_ask h
  obtain ⟨c, ⟨hfound, hc⟩, hv'⟩ := hm
  have hsame : v' = v := by
    rw [hv', hc]
  rw [hsame] at hrun
  cases found with
  | none =>
      obtain ⟨hmoved, _, hr⟩ := moved_pure hrun
      refine ⟨v, 0, hv, hmoved, ?_⟩
      rw [← hfound]
      exact hr
  | some contract =>
      obtain ⟨hmoved, now, hr⟩ := validateContract_run hrun
      refine ⟨v, now, hv, hmoved, ?_⟩
      rw [← hfound]
      exact hr

end Judging

section Calls
variable {parseRfc3339 : String → Option ℤ} {hmac : Hmac} {config : LdpAdapterConfig}
  {srv : LdpServer} {handles : Handler} {faulty : Prop}
  {tasks : ClientState → ClientState → Prop}
  {others : List String → ServerState → ServerState → Prop} {w w' : Linked ServerState}
  {tr : Trace} {url taskId : String} {task : TaskRequest} {stored : Option Value}

/-- The status is a verdict on the output, under the task's contract if it has one. -/
def Reports (parseRfc3339 : String → Option ℤ) (config : LdpAdapterConfig) (srv : LdpServer)
    (task : TaskRequest) (output : Value) (status : TaskStatus) : Prop :=
  ∃ produced now found, (∀ c, task.contract = some c → found = some c) ∧ status =
    polledStatus parseRfc3339 config found output (srv.completedProvenance produced) now

section
variable (htasks : KeepContracts tasks) (hothers : ∀ d s t, others d s t → Apart d s t)
include htasks hothers

/-- A query leaves the record alone; a status comes from the record alone. -/
theorem status_run (hw : Holds w task taskId stored) {r : Except String TaskStatus}
    (h : LinkedRun (Works hmac srv handles others) faulty tasks others
      (LdpAdapter.status parseRfc3339 hmac config url taskId) w tr w' r) :
    Holds w' task taskId stored ∧ ∀ status, r = .ok status →
      ∃ output, stored = some output ∧ Reports parseRfc3339 config srv task output status := by
  unfold LdpAdapter.status statusQuery at h
  obtain ⟨messageId, timestamp, v, tr₁, hv, hrun, _⟩ := newEnvelope_run h
  obtain ⟨v₁, p, answer, hv₁, hexchange, hrest⟩ := sendSigned_run hrun
  have hheld := (hw.moved htasks hothers hv).moved htasks hothers hv₁
  obtain ⟨hkeep, hanswer⟩ :=
    exchange_query hothers hheld.drawn (signIfConfigured_body ..) hexchange
  have hasked : Holds { v₁ with peer := p } task taskId stored :=
    ⟨hheld.drawn, hkeep.trans hheld.record, hheld.contract⟩
  rcases hrest with ⟨error, _, hr, _, hmoved⟩ | ⟨back, tr₂, hback, _, hrun₁⟩
  · refine ⟨hasked.moved htasks hothers hmoved, ?_⟩
    intro status hstatus
    rw [hr] at hstatus
    cases hstatus
  · obtain ⟨record, hrecord, hbody⟩ := hanswer back hback
    rw [hheld.record] at hrecord
    cases stored with
    | none => cases hrecord
    | some output =>
        obtain ⟨produced, hresult⟩ := hbody task.skill output (Option.some.inj hrecord).symm
        rw [hresult] at hrun₁
        obtain ⟨v₂, now, hv₂, hmoved, hr⟩ := judge_run hrun₁
        have hjudged := hasked.moved htasks hothers hv₂
        refine ⟨hjudged.moved htasks hothers hmoved, ?_⟩
        intro status hstatus
        rw [hr] at hstatus
        exact ⟨output, rfl, produced, now, _, hjudged.contract, (Except.ok.inj hstatus).symm⟩

/-- A cancellation that is confirmed leaves no record; one that is not may have left
the record where it was. -/
theorem cancel_run (hw : Holds w task taskId stored) {r : Except String Unit}
    (h : LinkedRun (Works hmac srv handles others) faulty tasks others
      (LdpAdapter.cancel hmac config url taskId) w tr w' r) :
    (Holds w' task taskId stored ∨ Holds w' task taskId none) ∧
      (r = .ok () → Holds w' task taskId none) := by
  unfold LdpAdapter.cancel at h
  obtain ⟨messageId, timestamp, v, tr₁, hv, hrun, _⟩ := newEnvelope_run h
  obtain ⟨v₁, p, answer, hv₁, hexchange, hrest⟩ := sendSigned_run hrun
  have hheld := (hw.moved htasks hothers hv).moved htasks hothers hv₁
  obtain ⟨hkept, hanswer⟩ :=
    exchange_cancel hothers hheld.drawn (signIfConfigured_body ..) hexchange
  rcases hrest with ⟨error, _, hr, _, hmoved⟩ | ⟨back, tr₂, hback, _, hrun₁⟩
  · constructor
    · rcases hkept with hsame | hnone
      · have hleft : Holds { v₁ with peer := p } task taskId stored :=
          ⟨hheld.drawn, hsame.trans hheld.record, hheld.contract⟩
        exact .inl (hleft.moved htasks hothers hmoved)
      · have hgone : Holds { v₁ with peer := p } task taskId none :=
          ⟨hheld.drawn, hnone, hheld.contract⟩
        exact .inr (hgone.moved htasks hothers hmoved)
    · intro hok
      rw [hr] at hok
      cases hok
  · have hgone : Holds { v₁ with peer := p } task taskId none :=
      ⟨hheld.drawn, hanswer back hback, hheld.contract⟩
    obtain ⟨hmoved, _, _⟩ := moved_pure hrun₁
    have hlast := hgone.moved htasks hothers hmoved
    exact ⟨.inr hlast, fun _ => hlast⟩

/-- Counting the use of a session touches neither the record nor the contract. -/
theorem touch_run {handle : TaskHandle} {r : Except String TaskHandle}
    (hw : Holds w task taskId stored)
    (h : LinkedRun (Works hmac srv handles others) faulty tasks others
      (touch url >>= fun _ => pure handle) w tr w' r) :
    Holds w' task taskId stored ∧ r = .ok handle := by
  unfold touch touchSession at h
  simp only [call_bind] at h
  obtain ⟨v, _, v', tr₁, hv, hm, hrun, _⟩ := moved_ask h
  obtain ⟨c, ⟨now, hc⟩, hv'⟩ := hm
  obtain ⟨hmoved, _, hr⟩ := moved_pure hrun
  have hheld := hw.moved htasks hothers hv
  have hcounted : Holds v' task taskId stored := by
    rw [hv', hc]
    exact ⟨hheld.drawn, hheld.record, hheld.contract⟩
  exact ⟨hcounted.moved htasks hothers hmoved, hr⟩

theorem store_run {handle : TaskHandle} {r : Except String TaskHandle}
    (hdrawn : taskId ∈ w.drawn) (hrecord : w.peer.tasks.lookup taskId =
      stored.map (LdpServer.completedRecord taskId task.skill))
    (h : LinkedRun (Works hmac srv handles others) faulty tasks others
      (storeContract taskId task.contract >>= fun _ => touch url >>= fun _ => pure handle)
      w tr w' r) : Holds w' task taskId stored ∧ r = .ok handle := by
  cases hcontract : task.contract with
  | none =>
      rw [hcontract] at h
      have hw : Holds w task taskId stored := by
        refine ⟨hdrawn, hrecord, ?_⟩
        intro c hc
        rw [hcontract] at hc
        cases hc
      exact touch_run htasks hothers hw h
  | some contract =>
      rw [hcontract] at h
      unfold storeContract insertContract at h
      simp only [call_bind] at h
      obtain ⟨v, _, v', tr₁, hv, hm, hrun, _⟩ := moved_ask h
      obtain ⟨c, hc, hv'⟩ := hm
      have hw : Holds v' task taskId stored := by
        refine ⟨?_, ?_, ?_⟩
        · rw [hv']
          exact hv.drawn hdrawn
        · rw [hv']
          exact (apart_lookup hothers hdrawn hv.peer).trans hrecord
        · intro d hd
          rw [hcontract] at hd
          rw [hv', hc, Option.some.inj hd]
          exact AList.lookup_insert _
      exact touch_run htasks hothers hw hrun

/-- A submission that returns a handle leaves the output of the handler at the server
and the contract at the client. -/
theorem invoke_run {handle : TaskHandle}
    (h : LinkedRun (Works hmac srv handles others) faulty tasks others
      (LdpAdapter.invoke hmac config url task) w tr w' (.ok handle)) :
    handle.remoteUrl = url ∧ ∃ output, handles task.skill task.input output ∧
      Holds w' task handle.taskId (some output) := by
  unfold LdpAdapter.invoke at h
  rcases h.of_bind with ⟨session, u, _, tr₁, _, hrest, _⟩ | ⟨_, _, hbad⟩
  · unfold SessionManager.newV4 at hrest
    simp only [call_bind] at hrest
    obtain ⟨taskId, v, tr₂, _, hid, hrun, _⟩ := ask_newV4 hrest
    obtain ⟨messageId, timestamp, v₁, tr₃, hv₁, hrun₁, _⟩ := newEnvelope_run hrun
    obtain ⟨v₂, p, answer, hv₂, hexchange, hsent⟩ := sendSigned_run hrun₁
    have hdrawn := hv₂.drawn (hv₁.drawn hid)
    rcases hsent with ⟨error, _, hr, _⟩ | ⟨back, tr₄, hback, _, hrun₂⟩
    · cases hr
    · subst hback
      obtain ⟨output, hhandled, hrecord⟩ :=
        exchange_submit hothers hdrawn (signIfConfigured_body ..) hexchange
      obtain ⟨hheld, hr⟩ := store_run htasks hothers (w := { v₂ with peer := p }) hdrawn
        (by rw [Option.map_some]; exact hrecord) hrun₂
      rw [Except.ok.inj hr]
      exact ⟨rfl, output, hhandled, hheld⟩
  · cases hbad

end

/-- What a caller does with the handle of a task. -/
inductive FollowUp where
  | status
  | cancel

inductive Answer where
  | status (result : Except String TaskStatus)
  | cancelled (result : Except String Unit)

/-- A failure of one call does not keep the caller from making the next. -/
def FollowUp.program (parseRfc3339 : String → Option ℤ) (hmac : Hmac) (config : LdpAdapterConfig)
    (handle : TaskHandle) : FollowUp → ClientProgram Answer
  | .status => do
      let result ← (LdpAdapter.status parseRfc3339 hmac config handle.remoteUrl
        handle.taskId).attempt
      pure (.status result)
  | .cancel => do
      let result ← (LdpAdapter.cancel hmac config handle.remoteUrl handle.taskId).attempt
      pure (.cancelled result)

def followUps (parseRfc3339 : String → Option ℤ) (hmac : Hmac) (config : LdpAdapterConfig)
    (handle : TaskHandle) : List FollowUp → ClientProgram (List Answer)
  | [] => pure []
  | call :: calls => do
      let answer ← call.program parseRfc3339 hmac config handle
      let answers ← followUps parseRfc3339 hmac config handle calls
      pure (answer :: answers)

/-- A submission and what follows it. -/
def submitAndFollow (parseRfc3339 : String → Option ℤ) (hmac : Hmac) (config : LdpAdapterConfig)
    (url : String) (task : TaskRequest) (calls : List FollowUp) : ClientProgram (List Answer) := do
  let handle ← LdpAdapter.invoke hmac config url task
  followUps parseRfc3339 hmac config handle calls

/-- A call whose failure is kept ends in success. -/
theorem attempt_run {α β : Type} {p : ClientProgram α} {f : Except String α → ClientProgram β}
    {r : Except String β}
    (h : LinkedRun (Works hmac srv handles others) faulty tasks others
      (p.attempt >>= f) w tr w' r) :
    ∃ result v tr₁ tr₂, LinkedRun (Works hmac srv handles others) faulty tasks others p w tr₁ v
        result ∧
      LinkedRun (Works hmac srv handles others) faulty tasks others (f result) v tr₂ w' r := by
  induction p generalizing w tr with
  | pure a => exact ⟨.ok a, w, [], tr, .pure a w, h⟩
  | throw e => exact ⟨.error e, w, [], tr, .throw e w, h⟩
  | ask q next ih =>
      obtain ⟨w₁, a, v, tr₁, hw, hm, hrun, _⟩ := run_ask.mp h
      obtain ⟨result, u, tr₂, tr₃, hp, hrest⟩ := ih a hrun
      exact ⟨result, u, _, tr₃, run_ask.mpr ⟨w₁, a, v, tr₂, hw, hm, hp, rfl⟩, hrest⟩

theorem rest_run {p : ClientProgram (List Answer)} {answer : Answer} {answers : List Answer}
    (h : LinkedRun (Works hmac srv handles others) faulty tasks others
      (p >>= fun answers => .pure (answer :: answers)) w tr w' (.ok answers)) :
    ∃ rest v tr₁, LinkedRun (Works hmac srv handles others) faulty tasks others p w tr₁ v
      (.ok rest) ∧ answers = answer :: rest := by
  rcases h.of_bind with ⟨rest, v, tr₁, tr₂, hrun, hend, _⟩ | ⟨_, _, hbad⟩
  · obtain ⟨_, _, hr⟩ := moved_pure hend
    exact ⟨rest, v, tr₁, hrun, Except.ok.inj hr⟩
  · cases hbad

section
variable (htasks : KeepContracts tasks) (hothers : ∀ d s t, others d s t → Apart d s t)
include htasks hothers

/-- From then on every status that is reported is a verdict on what is stored, and
comes before any confirmed cancellation. -/
theorem followUps_run {handle : TaskHandle} {calls : List FollowUp} {answers : List Answer}
    (hw : Holds w task handle.taskId stored)
    (h : LinkedRun (Works hmac srv handles others) faulty tasks others
      (followUps parseRfc3339 hmac config handle calls) w tr w' (.ok answers))
    {before after : List Answer} {status : TaskStatus}
    (hanswers : answers = before ++ .status (.ok status) :: after) :
    (∃ output, stored = some output ∧ Reports parseRfc3339 config srv task output status) ∧
      .cancelled (.ok ()) ∉ before := by
  induction calls generalizing w tr w' stored answers before with
  | nil =>
      obtain ⟨_, _, hr⟩ := moved_pure h
      rw [hanswers] at hr
      cases before <;> cases hr
  | cons call calls ih =>
      unfold followUps at h
      cases call with
      | status =>
          simp only [FollowUp.program, bind_assoc, pure_eq, pure_bind_eq] at h
          obtain ⟨result, v, tr₁, tr₂, hcall, hrest⟩ := attempt_run h
          obtain ⟨hheld, hreport⟩ := status_run htasks hothers hw hcall
          obtain ⟨rest, u, tr₃, hfollow, hcons⟩ := rest_run hrest
          rw [hanswers] at hcons
          cases before with
          | nil =>
              cases hcons
              exact ⟨hreport status rfl, by simp⟩
          | cons first before =>
              cases hcons
              obtain ⟨houtput, hnone⟩ := ih hheld hfollow rfl
              exact ⟨houtput, by simp [hnone]⟩
      | cancel =>
          simp only [FollowUp.program, bind_assoc, pure_eq, pure_bind_eq] at h
          obtain ⟨result, v, tr₁, tr₂, hcall, hrest⟩ := attempt_run h
          obtain ⟨hkept, hconfirmed⟩ := cancel_run htasks hothers hw hcall
          obtain ⟨rest, u, tr₃, hfollow, hcons⟩ := rest_run hrest
          rw [hanswers] at hcons
          cases before with
          | nil => cases hcons
          | cons first before =>
              cases hcons
              rcases hkept with hheld | hgone
              · obtain ⟨houtput, hnone⟩ := ih hheld hfollow rfl
                refine ⟨houtput, ?_⟩
                intro hmem
                rcases List.mem_cons.mp hmem with hfirst | hlater
                · cases hfirst
                  obtain ⟨⟨_, hbad, _⟩, _⟩ := ih (hconfirmed rfl) hfollow rfl
                  cases hbad
                · exact hnone hlater
              · obtain ⟨⟨_, hbad, _⟩, _⟩ := ih hgone hfollow rfl
                cases hbad

end

/-- One submission and any calls about its task, among other clients of the server and
other tasks of the client, over a network that may lose messages: the statuses that are
reported are all verdicts on one output, which the handler returned for the task's
skill and input, and none of them comes after a confirmed cancellation. -/
theorem task_delivered (parseRfc3339 : String → Option ℤ) (hmac : Hmac)
    (config : LdpAdapterConfig) (srv : LdpServer) (handles : Handler) (faulty : Prop)
    (tasks : ClientState → ClientState → Prop)
    (others : List String → ServerState → ServerState → Prop) (htasks : KeepContracts tasks)
    (hothers : ∀ d s t, others d s t → Apart d s t) (url : String) (task : TaskRequest)
    (calls : List FollowUp) (w w' : Linked ServerState) (tr : Trace) (answers : List Answer)
    (h : LinkedRun (Works hmac srv handles others) faulty tasks others
      (submitAndFollow parseRfc3339 hmac config url task calls) w tr w' (.ok answers)) :
    ∃ output, handles task.skill task.input output ∧
      ∀ before status after, answers = before ++ .status (.ok status) :: after →
        Reports parseRfc3339 config srv task output status ∧ .cancelled (.ok ()) ∉ before := by
  unfold submitAndFollow at h
  rcases h.of_bind with ⟨handle, v, tr₁, tr₂, hinvoke, hfollow, _⟩ | ⟨_, _, hbad⟩
  · obtain ⟨_, output, hhandled, hheld⟩ := invoke_run htasks hothers hinvoke
    refine ⟨output, hhandled, ?_⟩
    intro before status after hanswers
    obtain ⟨⟨stored, hstored, hreport⟩, hnone⟩ :=
      followUps_run htasks hothers hheld hfollow hanswers
    rw [Option.some.inj hstored]
    exact ⟨hreport, hnone⟩
  · cases hbad

end Calls

def echoTask : TaskRequest := { skill := "echo", input := .string "x" }

/-- A second before the epoch. -/
def beforeEpoch (_ : String) : Option ℤ := some (-1000000000)

/-- The same task under a fail-closed contract that was due then. -/
def lateTask : TaskRequest :=
  { echoTask with
    contract := some {
      contractId := "c1"
      objective := "answer at once"
      successCriteria := []
      policy := { failurePolicy := .failClosed }
      deadline := some "1969-12-31T23:59:59+00:00"
      createdAt := "t0" } }

/-- The first status call finds the task done, and too late. -/
theorem task_delivered_late : ∃ w' tr error rest,
    LinkedRun (Works submissionMac (LdpServer.echoServer "ldp:b" "B")
      (fun _ input output => output = .object [("echo", input)]) fun _ => Quiet) False Quiet
      (fun _ => Quiet) (submitAndFollow beforeEpoch submissionMac Handshake.echoConfig "u"
        lateTask [.status, .cancel, .status]) Handshake.alone tr w'
      (.ok (.status (.ok (.failed error)) :: rest)) ∧
    error.code = "CONTRACT_VIOLATED" ∧
    Reports beforeEpoch Handshake.echoConfig (LdpServer.echoServer "ldp:b" "B") lateTask
      (.object [("echo", .string "x")]) (.failed error) := by
  obtain ⟨tr, w', r, hrun, hr⟩ : ∃ tr w' r, LinkedRun (Works submissionMac
      (LdpServer.echoServer "ldp:b" "B") (fun _ input output => output = .object [("echo", input)])
      fun _ => Quiet) False Quiet (fun _ => Quiet) (submitAndFollow beforeEpoch submissionMac
        Handshake.echoConfig "u" lateTask [.status, .cancel, .status]) Handshake.alone tr w' r ∧
      ∃ error rest, r = .ok (.status (.ok (.failed error)) :: rest) ∧
        error.code = "CONTRACT_VIOLATED" :=
    ⟨_, _, _, exec_run (LinkedSessionManager.networked
      (LinkedServer.serve submissionMac (LdpServer.echoServer "ldp:b" "B")))
      (LinkedSessionManager.networked_meaning (works_echo _ _ _) False) _ _, _, _, rfl, rfl⟩
  obtain ⟨error, rest, hanswers, hcode⟩ := hr
  subst hanswers
  obtain ⟨output, houtput, hreports⟩ := task_delivered beforeEpoch submissionMac
    Handshake.echoConfig (LdpServer.echoServer "ldp:b" "B") _ False Quiet (fun _ => Quiet)
    (fun _ _ h => h.elim) (fun _ _ _ h => h.elim) "u" lateTask [.status, .cancel, .status]
    Handshake.alone w' tr _ hrun
  have hreport := (hreports [] (.failed error) rest rfl).1
  rw [houtput] at hreport
  exact ⟨_, _, error, rest, hrun, hcode, hreport⟩

end LdpProtocol.TaskDelivery
