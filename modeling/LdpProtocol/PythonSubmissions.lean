import LdpProtocol.LinkedPythonClient
import LdpProtocol.MonitoredCalls
import LdpProtocol.PythonVerdicts

/-!
# Submissions of a Python client to a willing peer

A peer at one URL answers what the client sends there. If it takes part in every
handshake of the client and performs the task it is given, then whatever the
client's other calls do in between, a submission sends one message and comes to
what the peer's answer comes to under the contract of the task. Which peers are
willing is not settled here.
-/
namespace LdpProtocol.PythonSubmissions
open InteractivePrograms InterferedRuns ConcurrentCalls MonitoredCalls
open InteractivePrograms.Program (call_bind pure_eq pure_bind_eq)
open JsonValues PayloadModes PythonMessages PythonSigning PythonIdentity
open EnvelopeSigning (Hmac)
open PythonClient PythonTasks PythonVerdicts
open LinkedPythonClient (Discovered validated_trusted)

/-- Which answers a peer may give to a document and to a request for its card. -/
structure Peer where
  answers : Value → Except String Value → Prop
  identifies : Except String Value → Prop

namespace Peer
variable (peer : Peer) (hmac : Hmac) (client : LdpClient)

/-- Any answer to the message, once signed, is a document in which the client reads
an envelope as wanted. -/
def Replies (e : LdpEnvelope) (wanted : LdpEnvelope → Prop) : Prop :=
  ∀ answer, peer.answers (signIfConfigured hmac client.signingSecret e).modelDump answer →
    ∃ document back, answer = .ok document ∧
      (∀ made, LdpEnvelope.modelValidate made document = some back) ∧ wanted back

/-- The peer takes part in the handshakes of the client. -/
structure Welcomes : Prop where
  identity : ∀ answer, peer.identifies answer →
    ∃ document identity, answer = .ok document ∧ Discovered client document identity
  hello : ∀ messageId timestamp to_ modes, peer.Replies hmac client
    (.create messageId timestamp "" client.delegateId to_ (.hello client.delegateId modes) .text)
    fun _ => True
  propose : ∀ messageId timestamp sessionId to_ registered, peer.Replies hmac client
    (.create messageId timestamp sessionId client.delegateId to_
      (.sessionPropose (client.proposeConfig (client.advertisedModes registered))) .text)
    fun back => back.body.type = "SESSION_ACCEPT" ∧
      (back.body.negotiatedMode.getD .text = .text ∨
        back.body.negotiatedMode.getD .text ∈ client.advertisedModes registered)

/-- The submission of a task, in any session. -/
def submission (client : LdpClient) (task : TaskArguments)
    (messageId timestamp sessionId to_ : String) (mode : PayloadMode) (taskId : String) :
    LdpEnvelope :=
  .create messageId timestamp sessionId client.delegateId to_
    (taskSubmit taskId task.skill task.inputData task.contract) mode

/-- The peer performs the task, with a certain outcome. -/
def Performs (task : TaskArguments) (outcome : LdpEnvelope → LdpMessageBody → Prop) : Prop :=
  ∀ messageId timestamp sessionId to_ mode taskId,
    peer.Replies hmac client (submission client task messageId timestamp sessionId to_ mode taskId)
      fun back => outcome (signIfConfigured hmac client.signingSecret
        (submission client task messageId timestamp sessionId to_ mode taskId)) back.body

end Peer

section Client
variable (peer : Peer) (url : String)

/-- The peer is at the URL, and nothing on the way to it is lost. -/
def Linked : Event ClientCall ClientCall.Answer → Prop
  | ⟨.postMessage to_ document, answer⟩ => to_ = url → peer.answers document answer
  | ⟨.getIdentity from_, answer⟩ => from_ = url → peer.identifies answer
  | _ => True

def TaskLinked : Event TaskCall TaskCall.Answer → Prop
  | ⟨.client q, a⟩ => Linked peer url ⟨q, a⟩
  | _ => True

/-- The type of the message in a document. -/
def bodyType (document : Value) : Option String :=
  (document.get "body").bind fun body => body.field "type" Value.asStr

/-- The submissions that are sent, each with where it goes. -/
def countSubmission (sent : List (String × Value)) : Event ClientCall ClientCall.Answer →
    List (String × Value)
  | ⟨.postMessage to_ document, _⟩ =>
      if bodyType document = some "TASK_SUBMIT" then sent ++ [(to_, document)] else sent
  | _ => sent

def countTask (sent : List (String × Value)) : Event TaskCall TaskCall.Answer →
    List (String × Value)
  | ⟨.client q, a⟩ => countSubmission sent ⟨q, a⟩
  | _ => sent

def clientMonitor : Monitor ClientCall ClientCall.Answer (List (String × Value)) where
  after := countSubmission
  allows _ _ := True
  expects := Linked peer url

def taskMonitor : Monitor TaskCall TaskCall.Answer (List (String × Value)) where
  after := countTask
  allows _ _ := True
  expects := TaskLinked peer url

end Client

section Steps
variable {peer : Peer} {hmac : Hmac} {client : LdpClient} {url : String}
  {sent : List (String × Value)}

/-- A question that is no post is allowed and counts for nothing. -/
theorem obeys_ask {α : Type} {q : ClientCall} {next : q.Answer → ClientProgram α}
    {post : List (String × Value) → Except Raised α → Prop}
    (hq : ∀ to_ document, q ≠ .postMessage to_ document)
    (h : ∀ a, Linked peer url ⟨q, a⟩ → (clientMonitor peer url).Obeys (next a) sent post) :
    (clientMonitor peer url).Obeys (.ask q next) sent post := by
  intro a ha
  have hsame : countSubmission sent ⟨q, a⟩ = sent := by
    cases q with
    | postMessage to_ document => exact (hq to_ document rfl).elim
    | _ => rfl
  refine ⟨trivial, ?_⟩
  show (clientMonitor peer url).Obeys (next a) (countSubmission sent ⟨q, a⟩) post
  rw [hsame]
  exact h a ha

theorem uuid4_obeys : (clientMonitor peer url).Obeys PythonClient.uuid4 sent
    fun sent' r => ∃ id, r = .ok id ∧ sent' = sent := by
  intro id _
  exact ⟨trivial, id, rfl, rfl⟩

theorem create_obeys (sessionId fromId toId : String) (body : LdpMessageBody) :
    (clientMonitor peer url).Obeys (PythonClient.create sessionId fromId toId body) sent
      fun sent' r => ∃ e, r = .ok e ∧ sent' = sent ∧ ∃ messageId timestamp,
        e = LdpEnvelope.create messageId timestamp sessionId fromId toId body .text := by
  unfold PythonClient.create PythonClient.uuid4 PythonClient.isoNow
  simp only [call_bind, pure_eq]
  apply obeys_ask (by simp)
  intro messageId _
  apply obeys_ask (by simp)
  intro timestamp _
  exact ⟨_, rfl, rfl, messageId, timestamp, rfl⟩

theorem createSubmit_obeys (session : PythonClient.LdpSession) (body : LdpMessageBody) :
    (clientMonitor peer url).Obeys (createSubmit client.delegateId session body) sent
      fun sent' r => ∃ e, r = .ok e ∧ sent' = sent ∧ ∃ messageId timestamp,
        e = LdpEnvelope.create messageId timestamp session.sessionId client.delegateId
          session.remoteDelegateId body session.payload.mode := by
  unfold createSubmit PythonClient.uuid4 PythonClient.isoNow
  simp only [call_bind, pure_eq]
  apply obeys_ask (by simp)
  intro messageId _
  apply obeys_ask (by simp)
  intro timestamp _
  exact ⟨_, rfl, rfl, messageId, timestamp, rfl⟩

theorem sendMessage_obeys {e : LdpEnvelope} {wanted : LdpEnvelope → Prop}
    (h : peer.Replies hmac client e wanted) :
    (clientMonitor peer url).Obeys (client.sendMessage hmac url e) sent
      fun sent' r => ∃ back, r = .ok back ∧ wanted back ∧
        sent' = if e.body.type = "TASK_SUBMIT" then
          sent ++ [(url, (signIfConfigured hmac client.signingSecret e).modelDump)]
          else sent := by
  unfold LdpClient.sendMessage
  simp only [call_bind]
  intro answer hanswer
  refine ⟨trivial, ?_⟩
  obtain ⟨document, back, rfl, hread, hwanted⟩ := h answer (hanswer rfl)
  simp only [raiseForStatus, pure_bind_eq]
  intro made _
  refine ⟨trivial, ?_⟩
  dsimp only
  rw [hread]
  refine ⟨back, rfl, hwanted, ?_⟩
  have htype : bodyType (signIfConfigured hmac client.signingSecret e).modelDump =
      some e.body.type := by
    rw [← signIfConfigured_body hmac client.signingSecret e]
    rfl
  show (if bodyType (signIfConfigured hmac client.signingSecret e).modelDump =
    some "TASK_SUBMIT" then _ else _) = _
  rw [htype]
  simp

/-- The card is read and passes the client's check. -/
theorem discover_obeys (h : peer.Welcomes hmac client) :
    (clientMonitor peer url).Obeys (client.discover url) sent
      fun sent' r => ∃ identity, r = .ok identity ∧ sent' = sent := by
  unfold LdpClient.discover
  simp only [call_bind]
  apply obeys_ask (by simp)
  intro answer hanswer
  obtain ⟨document, identity, rfl, hdiscovered⟩ := h.identity answer (hanswer rfl)
  rcases validated_trusted client document with ⟨identity, _, hpasses⟩ | ⟨hnone, _⟩
  · simp only [raiseForStatus, pure_bind_eq]
    rw [hpasses]
    exact ⟨identity, rfl, rfl⟩
  · exact (hnone identity hdiscovered).elim

theorem openSession_obeys (h : peer.Welcomes hmac client) {sessionId : String}
    {advertised : List PayloadMode} {body : LdpMessageBody}
    (hmode : body.negotiatedMode.getD .text = .text ∨
      body.negotiatedMode.getD .text ∈ advertised) :
    (clientMonitor peer url).Obeys (client.openSession url sessionId advertised body) sent
      fun sent' r => ∃ session, r = .ok session ∧ sent' = sent := by
  unfold LdpClient.openSession
  dsimp only
  rw [if_neg (by tauto)]
  apply (discover_obeys h).bind_ok
  intro sent' identity hsame
  subst hsame
  unfold PythonClient.utcNow setSession
  simp only [call_bind, pure_eq]
  apply obeys_ask (by simp)
  intro createdAt _
  apply obeys_ask (by simp)
  intro lastUsed _
  apply obeys_ask (by simp)
  intro _ _
  exact ⟨_, rfl, rfl⟩

theorem proposeSession_obeys (h : peer.Welcomes hmac client) (registered : List PayloadMode) :
    (clientMonitor peer url).Obeys
      (client.proposeSession hmac url (client.advertisedModes registered)) sent
      fun sent' r => ∃ session, r = .ok session ∧ sent' = sent := by
  unfold LdpClient.proposeSession
  apply uuid4_obeys.bind_ok
  intro sent₁ sessionId hsame
  subst hsame
  apply (create_obeys _ _ _ _).bind_ok
  intro sent₂ propose hpropose
  obtain ⟨rfl, messageId, timestamp, rfl⟩ := hpropose
  apply (sendMessage_obeys (h.propose _ _ _ _ registered)).bind_ok
  intro sent₃ back hback
  obtain ⟨⟨htype, hmode⟩, hsent⟩ := hback
  have hsame : sent₃ = sent₂ := hsent
  subst hsame
  rw [htype, if_neg (by decide)]
  exact openSession_obeys h hmode

/-- A handshake comes to a session, and submits nothing. -/
theorem establishSession_obeys (h : peer.Welcomes hmac client) :
    (clientMonitor peer url).Obeys (client.establishSession hmac url) sent
      fun sent' r => ∃ session, r = .ok session ∧ sent' = sent := by
  unfold LdpClient.establishSession PythonClient.registeredModes
  simp only [call_bind]
  apply obeys_ask (by simp)
  intro registered _
  apply (create_obeys _ _ _ _).bind_ok
  intro sent₁ hello hhello
  obtain ⟨rfl, messageId, timestamp, rfl⟩ := hhello
  apply (sendMessage_obeys (h.hello _ _ _ _)).bind_ok
  intro sent₂ back hback
  have hsame : sent₂ = sent₁ := hback.2
  subst hsame
  exact proposeSession_obeys h registered

end Steps

section Submission
variable {peer : Peer} {hmac : Hmac} {client : LdpClient} {url : String}
  {sent : List (String × Value)} {fromIsoFormat : String → Option Deadline}

/-- A program of the client obeys among the tasks as it does alone. -/
theorem lifted_obeys {α : Type} {p : ClientProgram α}
    {mid : List (String × Value) → α → Prop}
    (h : (clientMonitor peer url).Obeys p sent fun sent' r => ∃ a, r = .ok a ∧ mid sent' a) :
    (taskMonitor peer url).Obeys (lifted p) sent
      fun sent' r => ∃ a, r = .ok a ∧ mid sent' a := by
  have htranslated : (taskMonitor peer url).Obeys (lifted p) sent
      fun sent' r => ∃ r₀ : Except Raised α, (∃ a, r₀ = .ok a ∧ mid sent' a) ∧
        r = r₀.mapError Failure.raised := by
    refine Monitor.Obeys.translate ?_ ?_ ?_ h
    · exact fun q a ha => ha
    · exact fun sent q a _ => trivial
    · exact fun sent q a => rfl
  apply htranslated.imp
  intro sent' r hr
  obtain ⟨_, ⟨a, rfl, hmid⟩, rfl⟩ := hr
  exact ⟨a, rfl, hmid⟩

theorem now_obeys : (taskMonitor peer url).Obeys now sent
    fun sent' r => ∃ read, r = .ok read ∧ sent' = sent := by
  apply lifted_obeys
  intro read _
  exact ⟨trivial, read, rfl, rfl⟩

theorem isActive_obeys (session : PythonClient.LdpSession) :
    (taskMonitor peer url).Obeys (isActive session) sent
      fun sent' r => ∃ active, r = .ok active ∧ sent' = sent := by
  unfold isActive
  split
  · apply now_obeys.bind_ok
    intro sent' read hsame
    exact ⟨_, rfl, hsame⟩
  · exact ⟨_, rfl, rfl⟩

/-- Whatever the dictionary holds, there is a session to submit in. -/
theorem getOrEstablish_obeys (h : peer.Welcomes hmac client) :
    (taskMonitor peer url).Obeys (getOrEstablishSession hmac client url) sent
      fun sent' r => ∃ session, r = .ok session ∧ sent' = sent := by
  unfold getOrEstablishSession getSession
  simp only [call_bind]
  intro cached _
  refine ⟨trivial, ?_⟩
  show (taskMonitor peer url).Obeys _ sent _
  cases cached with
  | none => exact lifted_obeys (establishSession_obeys h)
  | some session =>
      apply (isActive_obeys session).bind_ok
      intro sent' active hsame
      subst hsame
      cases active with
      | true => exact ⟨session, rfl, rfl⟩
      | false => exact lifted_obeys (establishSession_obeys h)

/-- Validating a contract reads the clock at most once. -/
theorem validateContract_obeys (contract : DelegationContract) (provenance : Provenance) :
    (taskMonitor peer url).Obeys (validateContract fromIsoFormat contract provenance) sent
      fun sent' r => sent' = sent ∧ ∃ now, r = verdictAt fromIsoFormat contract provenance now := by
  unfold validateContract deadlineViolations verdictAt violationsAt lateCodes deadlineOf
  cases contract.deadline.bind fun text => if text = "" then none else fromIsoFormat text with
  | none => exact ⟨rfl, 0, rfl⟩
  | some deadline =>
      cases deadline with
      | naive =>
          simp only [bind_assoc]
          apply now_obeys.bind_ok
          intro sent' read hsame
          exact ⟨hsame, 0, rfl⟩
      | aware deadline =>
          simp only [bind_assoc]
          apply now_obeys.bind_ok
          intro sent' read hsame
          exact ⟨hsame, read, rfl⟩

/-- What the caller gets of a result, under the contract of the task if it has one. -/
def reported (fromIsoFormat : String → Option Deadline) (contract : Option DelegationContract)
    (body : LdpMessageBody) (now : ℤ) : Except Failure TaskReport :=
  match contract with
  | some contract => concludedAt fromIsoFormat contract body now
  | none => .ok (resultOf body none)

theorem concludeResult_obeys (contract : Option DelegationContract) (body : LdpMessageBody) :
    (taskMonitor peer url).Obeys (concludeResult fromIsoFormat contract body) sent
      fun sent' r => sent' = sent ∧ ∃ now, r = reported fromIsoFormat contract body now := by
  unfold concludeResult reported concludedAt
  cases contract with
  | none =>
      refine ⟨rfl, 0, ?_⟩
      rfl
  | some contract =>
      cases hgiven : body.provenance with
      | none =>
          refine ⟨rfl, 0, ?_⟩
          unfold resultOf
          rw [hgiven]
      | some given =>
          apply (validateContract_obeys contract given).bind
          · intro sent' violations hmid
            obtain ⟨rfl, now, hverdict⟩ := hmid
            dsimp only
            split
            · next hbroken =>
                refine ⟨rfl, now, ?_⟩
                rw [← hverdict]
                show _ = judged contract body violations
                unfold judged resultOf
                rw [if_pos hbroken, hgiven]
            · next hkept =>
                refine ⟨rfl, now, ?_⟩
                rw [← hverdict]
                show _ = judged contract body violations
                unfold judged resultOf
                rw [if_neg hkept, hgiven]
          · intro sent' error hmid
            obtain ⟨rfl, now, hverdict⟩ := hmid
            refine ⟨rfl, now, ?_⟩
            dsimp only
            rw [← hverdict]
            rfl

/-- What a submission comes to on an answer, if the clock is read as `now`. -/
def comesTo (fromIsoFormat : String → Option Deadline) (contract : Option DelegationContract)
    (requested : String) (body : LdpMessageBody) (now : ℤ) : Except Failure TaskReport :=
  if body.type = "TASK_RESULT" then reported fromIsoFormat contract body now
  else if body.type = "TASK_FAILED" then .error (taskFailure body)
  else .ok (.pending requested body.type body.message)

theorem concludeTask_obeys (contract : Option DelegationContract) (requested : String)
    (body : LdpMessageBody) :
    (taskMonitor peer url).Obeys (concludeTask fromIsoFormat contract requested body) sent
      fun sent' r => sent' = sent ∧
        ∃ now, r = comesTo fromIsoFormat contract requested body now := by
  unfold concludeTask comesTo
  split
  · exact concludeResult_obeys contract body
  · split
    · exact ⟨rfl, 0, rfl⟩
    · exact ⟨rfl, 0, rfl⟩

/-- One submission of the task went out, to the URL, and the caller has what the
outcome comes to. -/
def Submitted (fromIsoFormat : String → Option Deadline) (url : String) (task : TaskArguments)
    (outcome : LdpEnvelope → LdpMessageBody → Prop) (submissions : List (String × Value))
    (r : Except Failure TaskReport) : Prop :=
  ∃ submit requested body now, submissions = [(url, submit.modelDump)] ∧
    submit.body = taskSubmit requested task.skill task.inputData task.contract ∧
    outcome submit body ∧ r = comesTo fromIsoFormat task.contract requested body now

variable {task : TaskArguments} {outcome : LdpEnvelope → LdpMessageBody → Prop}

theorem submitIn_obeys (hperforms : peer.Performs hmac client task outcome)
    (session : PythonClient.LdpSession) :
    (taskMonitor peer url).Obeys (submitIn fromIsoFormat hmac client url task session) []
      (Submitted fromIsoFormat url task outcome) := by
  unfold submitIn
  apply (lifted_obeys uuid4_obeys).bind_ok
  intro sent₁ requested hsame
  subst hsame
  apply (lifted_obeys (createSubmit_obeys session _)).bind_ok
  intro sent₂ submit hsubmit
  obtain ⟨rfl, messageId, created, rfl⟩ := hsubmit
  apply (lifted_obeys (sendMessage_obeys (hperforms messageId created session.sessionId
    session.remoteDelegateId session.payload.mode requested))).bind_ok
  intro sent₃ back hback
  obtain ⟨houtcome, hsent⟩ := hback
  unfold touch
  simp only [call_bind]
  intro _ _
  refine ⟨trivial, ?_⟩
  apply (concludeTask_obeys task.contract requested back.body).imp
  intro sent₄ r hr
  obtain ⟨hlast, now, hreport⟩ := hr
  exact ⟨_, requested, back.body, now, hlast.trans hsent, signIfConfigured_body .., houtcome,
    hreport⟩

theorem submitTask_obeys (hwelcomes : peer.Welcomes hmac client)
    (hperforms : peer.Performs hmac client task outcome) :
    (taskMonitor peer url).Obeys (submitTask fromIsoFormat hmac client url task) []
      (Submitted fromIsoFormat url task outcome) := by
  unfold submitTask
  cases task.session with
  | some session => exact submitIn_obeys hperforms session
  | none =>
      apply (getOrEstablish_obeys hwelcomes).bind_ok
      intro sent session hsame
      subst hsame
      exact submitIn_obeys hperforms session

/-- The submissions a call has sent. -/
def submissionsOf (i : ℕ) (log : List (Entry TaskCall TaskCall.Answer ClientState)) :
    List (String × Value) := (traceOf i log).foldl countTask []

/-- What a finished submission has done, among any calls of the client. -/
theorem submitted_of_reached {registered : List PayloadMode} {k : PythonSessionCache.CallConfig}
    (h : PythonSessionCache.Reached fromIsoFormat hmac client registered k)
    (hwelcomes : peer.Welcomes hmac client) (hperforms : peer.Performs hmac client task outcome)
    {i : ℕ} {r : Except Failure Returned}
    (hcall : k.calls[i]? = some (.submitTask url task, done r))
    (hlinked : ∀ x ∈ k.log, x.caller = i → TaskLinked peer url x.event) :
    ∃ report, r = report.map .report ∧
      Submitted fromIsoFormat url task outcome (submissionsOf i k.log) report := by
  have halong := h.follows.along i _ _ hcall
  obtain ⟨report, hreport, hr⟩ := halong.of_bind_map
  refine ⟨report, hr, ?_⟩
  apply (submitTask_obeys hwelcomes hperforms).along hreport
  intro ev hev
  obtain ⟨x, hx, hcaller, rfl⟩ := mem_traceOf.mp hev
  exact hlinked x hx hcaller

end Submission

section Alone
variable (fromIsoFormat : String → Option Deadline) (hmac : Hmac) (client : LdpClient)
  {serve : Value → Except String Value} {card : Value}

/-- A peer that is all there is, with no codec registered. -/
def peered (serve : Value → Except String Value) (card : Value) (made : Factories) :
    (q : TaskCall) → ClientState → q.Answer × ClientState
  | .client (.postMessage _ document), s => (serve document, s)
  | .client (.getIdentity _), s => (.ok card, s)
  | q, s => answering .null .null made q s

theorem peered_meaning (made : Factories) (q : TaskCall) (s : ClientState) :
    TaskCall.Meaning q s (peered serve card made q s).1 (peered serve card made q s).2 := by
  cases q with
  | client q =>
      cases q with
      | postMessage url document => rfl
      | getIdentity url => rfl
      | _ => exact answering_meaning .null .null made (.client _) s
  | _ => exact answering_meaning .null .null made _ s

/-- A submission to a peer that answers every document comes to an end. -/
theorem exists_reached (peer : Peer) (made : Factories)
    (hanswers : ∀ document, peer.answers document (serve document))
    (hidentifies : peer.identifies (.ok card)) (url : String) (task : TaskArguments) :
    ∃ k r, PythonSessionCache.Reached fromIsoFormat hmac client [] k ∧
      k.calls[0]? = some (.submitTask url task, done r) ∧
      ∀ x ∈ k.log, x.caller = 0 → TaskLinked peer url x.event := by
  let out := Program.exec (peered serve card made)
    (Operation.program fromIsoFormat hmac client (.submitTask url task)) ⟨∅, []⟩
  have hrun : Run TaskCall.Meaning Quiet
      (Operation.program fromIsoFormat hmac client (.submitTask url task)) ⟨∅, []⟩ out.1 out.2.1
      out.2.2 := exec_run _ (peered_meaning made) _ _
  have hlinked : ∀ ev ∈ out.1, TaskLinked peer url ev := by
    apply exec_events
    intro q s
    cases q with
    | client q =>
        cases q with
        | postMessage to_ document => exact fun _ => hanswers document
        | getIdentity from_ => exact fun _ => hidentifies
        | _ => trivial
    | _ => trivial
  obtain ⟨steps, hmoves, _, hevents⟩ := Moves.call (idle (⟨∅, []⟩ : ClientState)) hrun
  refine ⟨_, out.2.2, hmoves, rfl, ?_⟩
  intro x hx _
  apply hlinked
  rw [← hevents]
  exact List.mem_map_of_mem hx

end Alone
end LdpProtocol.PythonSubmissions
