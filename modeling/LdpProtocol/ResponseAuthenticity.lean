import LdpProtocol.AdapterVerdicts
import LdpProtocol.ClientTrust
import LdpProtocol.PythonSessionCache

/-!
# What the clients believe

Both clients sign what they send; neither looks at the signature of what comes
back. A session that is cached, and a task that is reported as completed, rest on
answers of the right kind to requests that the client made itself. Whoever can
put such answers on the wire is believed.
-/
namespace LdpProtocol.ResponseAuthenticity
open InteractivePrograms InterferedRuns ConcurrentCalls
open InteractivePrograms.Program (call_bind pure_eq)

namespace Adapter
open JsonValues PayloadModes MessageTypes EnvelopeSigning SessionManager LdpAdapter
open ClientQuestions SessionEstablishment AdapterRuns AdapterVerdicts ClientTrust

/-- Some request of this kind was answered in this way, by a response that is
accepted. -/
def Answered (accepts : LdpEnvelope → Prop) (hmac : Hmac) (config : LdpAdapterConfig)
    (url : String) (request reply : LdpMessageBody → Prop) (tr : AdapterRuns.Trace) : Prop :=
  ∃ e response, ⟨.sendMessage url (signIfConfigured hmac config.signingSecret e),
      .ok response⟩ ∈ tr ∧ request e.body ∧ reply response.body ∧ accepts response

def IsManifest (body : LdpMessageBody) : Prop :=
  ∃ capabilities, body = .capabilityManifest capabilities

def IsHello (body : LdpMessageBody) : Prop := ∃ delegateId modes, body = .hello delegateId modes

def IsProposal (body : LdpMessageBody) : Prop := ∃ config, body = .sessionPropose config

def Accepts (sessionId : String) (body : LdpMessageBody) : Prop :=
  ∃ mode, body = .sessionAccept sessionId mode

def Queries (taskId : String) (body : LdpMessageBody) : Prop :=
  body = .taskUpdate taskId none (some "status_query")

def IsResult (body : LdpMessageBody) : Prop :=
  ∃ taskId output provenance, body = .taskResult taskId output provenance

def IsCompleted : TaskEvent → Prop
  | .completed _ => True
  | _ => False

/-- What the adapter holds and reports rests on responses that are accepted. -/
structure Based (accepts : LdpEnvelope → Prop) (hmac : Hmac) (config : LdpAdapterConfig)
    (k : AdapterConfig) : Prop where
  cached : ∀ url session, k.state.sessions.lookup url = some session → ∃ i,
    Answered accepts hmac config url IsHello IsManifest (traceOf i k.log) ∧
    Answered accepts hmac config url IsProposal (Accepts session.sessionId) (traceOf i k.log)
  status : ∀ (i : ℕ) url taskId output,
    k.calls[i]? = some (.status url taskId, done (.ok (.status (.completed output)))) →
    Answered accepts hmac config url (Queries taskId) IsResult (traceOf i k.log)
  stream : ∀ (i : ℕ) url task ticks events,
    k.calls[i]? = some (.stream url task ticks, done (.ok (.events events))) →
    (∃ event ∈ events, IsCompleted event) →
    ∃ taskId, Answered accepts hmac config url (Queries taskId) IsResult (traceOf i k.log)

section Paths
variable {parseRfc3339 : String → Option ℤ} {hmac : Hmac} {config : LdpAdapterConfig}
  {url : String} {tr : AdapterRuns.Trace}

def NoInsertion : ClientCall → Prop
  | .insertSession _ _ => False
  | _ => True

theorem noInsertion_of_talks {q : ClientCall} (hq : Talks url q) : NoInsertion q := by
  cases q with
  | insertSession => exact hq
  | _ => trivial

theorem noInsertion_of_confined {q : ClientCall} (hq : Confined (fun _ => False) q) :
    NoInsertion q := by
  cases q with
  | insertSession => exact hq
  | _ => trivial

/-- A session that is put into the cache has just been opened there. -/
theorem getOrEstablish_inserts {p : ClientProgram LdpSession} {v : String} {opened : LdpSession}
    (h : Along (getOrEstablish hmac config url) tr p)
    (hmem : ⟨.insertSession v opened, ()⟩ ∈ tr) : v = url ∧ Shaken hmac config url tr opened := by
  have hfresh : ∀ rest : AdapterRuns.Trace, Along (establishAndCache hmac config url) rest p →
      ⟨.insertSession v opened, ()⟩ ∈ rest → v = url ∧ Shaken hmac config url rest opened := by
    intro rest hrest hin
    obtain ⟨session, tr₁, tr₂, h₁, h₂, htr, hset⟩ := hrest.past
      ((establishSession_talks hmac config url).mono fun _ => noInsertion_of_talks) hin id
    unfold insertSession at h₂
    rw [call_bind] at h₂
    rcases along_ask.mp h₂ with ⟨hnil, _⟩ | ⟨_, tr₃, htr₂, h₃⟩
    · rw [hnil] at hset
      cases hset
    · rw [htr₂, (along_pure.mp h₃).1, List.mem_singleton] at hset
      cases hset
      have hdone : Along (establishSession hmac config url) tr₁ (done (.ok opened)) := h₁
      rw [htr]
      exact ⟨rfl, (establishSession_done hdone).mono (List.subset_append_left _ _)⟩
  unfold getOrEstablish getSession at h
  rw [call_bind] at h
  rcases along_ask.mp h with ⟨hnil, _⟩ | ⟨cached, rest, htr, hrest⟩
  · rw [hnil] at hmem
    cases hmem
  have hin : ⟨.insertSession v opened, ()⟩ ∈ rest := by simpa [htr] using hmem
  rw [htr]
  cases cached with
  | none =>
      obtain ⟨hv, hshaken⟩ := hfresh rest hrest hin
      exact ⟨hv, hshaken.mono (List.subset_cons_self _ _)⟩
  | some found =>
      obtain ⟨active, tr₁, tr₂, _, h₂, hsplit, hin₂⟩ := hrest.past
        ((isActive_talks url found).mono fun _ => noInsertion_of_talks) hin id
      cases active with
      | true =>
          rw [(along_pure.mp h₂).1] at hin₂
          cases hin₂
      | false =>
          obtain ⟨hv, hshaken⟩ := hfresh tr₂ h₂ hin₂
          refine ⟨hv, hshaken.mono ?_⟩
          rw [hsplit]
          intro ev hev
          simp [hev]

theorem invoke_inserts {task : TaskRequest} {p : ClientProgram TaskHandle} {v : String}
    {opened : LdpSession} (h : Along (invoke hmac config url task) tr p)
    (hmem : ⟨.insertSession v opened, ()⟩ ∈ tr) : v = url ∧ Shaken hmac config url tr opened := by
  rcases h.of_bind with ⟨p', hp', _⟩ | ⟨session, tr₁, tr₂, h₁, h₂, htr⟩
  · exact getOrEstablish_inserts hp' hmem
  · rw [htr] at hmem ⊢
    rcases List.mem_append.mp hmem with hmem | hmem
    · obtain ⟨hv, hshaken⟩ := getOrEstablish_inserts h₁ hmem
      exact ⟨hv, hshaken.mono (List.subset_append_left _ _)⟩
    · refine (h₂.uses (P := NoInsertion) ?_ _ hmem).elim
      refine ⟨trivial, ?_⟩
      intro taskId _
      have hordinary : Ordinary NoInsertion := ⟨trivial, trivial, trivial⟩
      exact submit_uses hordinary (fun _ _ => trivial) (fun _ _ => trivial) trivial

/-- What any operation puts into the cache it has just opened. -/
theorem reported_inserts {op : Operation} {p : ClientProgram Report} {v : String}
    {opened : LdpSession} (h : Along (reported parseRfc3339 hmac config op) tr p)
    (hmem : ⟨.insertSession v opened, ()⟩ ∈ tr) : Shaken hmac config v tr opened := by
  have hnever : ∀ {α : Type} {q r : ClientProgram α} {tr : AdapterRuns.Trace},
      AsksConfined (fun _ => False) q → Along q tr r → ⟨.insertSession v opened, ()⟩ ∉ tr :=
    fun hq hr hin => noInsertion_of_confined (hr.uses hq _ hin)
  cases op with
  | invoke url task =>
      obtain ⟨p', hp', _⟩ := h.of_map
      obtain ⟨rfl, hshaken⟩ := invoke_inserts hp' hmem
      exact hshaken
  | stream url task ticks =>
      obtain ⟨p', hp', _⟩ := h.of_map
      unfold LdpAdapter.stream at hp'
      rcases hp'.of_bind with ⟨p'', hp'', _⟩ | ⟨handle, tr₁, tr₂, h₁, h₂, htr⟩
      · obtain ⟨rfl, hshaken⟩ := invoke_inserts hp'' hmem
        exact hshaken
      · rw [htr] at hmem ⊢
        rcases List.mem_append.mp hmem with hmem | hmem
        · obtain ⟨rfl, hshaken⟩ := invoke_inserts h₁ hmem
          exact hshaken.mono (List.subset_append_left _ _)
        · exact (hnever (pollUpdates_confined _ _ _) h₂ hmem).elim
  | getOrEstablish url =>
      obtain ⟨p', hp', _⟩ := h.of_map
      obtain ⟨rfl, hshaken⟩ := getOrEstablish_inserts hp' hmem
      exact hshaken
  | status url taskId =>
      obtain ⟨p', hp', _⟩ := h.of_map
      exact (hnever (status_confined taskId) hp' hmem).elim
  | cancel url taskId =>
      obtain ⟨p', hp', _⟩ := h.of_map
      exact (hnever (cancel_confined taskId) hp' hmem).elim
  | close url =>
      obtain ⟨p', hp', _⟩ := h.of_map
      exact (hnever (close_confined url) hp' hmem).elim
  | closeAll =>
      obtain ⟨p', hp', _⟩ := h.of_map
      exact (hnever closeAll_confined hp' hmem).elim

/-- A request that was answered, and what is done with its answer. -/
theorem sendSigned_then {α : Type} {e : LdpEnvelope} {f : LdpEnvelope → ClientProgram α}
    {a : α} (h : Along (sendSigned hmac config url e >>= f) tr (done (.ok a))) :
    ∃ response rest, Along (f response) rest (done (.ok a)) ∧
      tr = ⟨.sendMessage url (signIfConfigured hmac config.signingSecret e),
        .ok response⟩ :: rest := by
  rcases h.of_bind_done with ⟨_, _, hr⟩ | ⟨response, tr₁, tr₂, h₁, h₂, htr⟩
  · cases hr
  · have hdone : Along (sendSigned hmac config url e) tr₁ (done (.ok response)) := h₁
    rw [sendSigned_done hdone] at htr
    exact ⟨response, tr₂, h₂, htr⟩

theorem statusQuery_then {α : Type} {taskId : String} {f : LdpEnvelope → ClientProgram α}
    {r : Except String α} (h : Along (statusQuery config url taskId >>= f) tr (done r)) :
    ∃ query before rest, Queries taskId query.body ∧ Along (f query) rest (done r) ∧
      tr = before ++ rest := by
  rcases h.of_bind_done with ⟨e, h₁, _⟩ | ⟨query, tr₁, tr₂, h₁, h₂, htr⟩
  · have hdone : Along (statusQuery config url taskId) tr (done (.error e)) := h₁
    obtain ⟨_, hr, _⟩ := newEnvelope_done hdone
    cases hr
  · have hdone : Along (statusQuery config url taskId) tr₁ (done (.ok query)) := h₁
    obtain ⟨_, hr, hbody⟩ := newEnvelope_done hdone
    cases hr
    exact ⟨query, tr₁, tr₂, hbody, h₂, htr⟩

/-- A status that says completed was read off a result. -/
theorem status_completed {taskId : String} {output : Value}
    (h : Along (LdpAdapter.status parseRfc3339 hmac config url taskId) tr
      (done (.ok (.completed output)))) :
    Answered (fun _ => True) hmac config url (Queries taskId) IsResult tr := by
  obtain ⟨query, before, rest, hquery, h₁, htr⟩ := statusQuery_then h
  obtain ⟨response, rest₂, h₂, hrest⟩ := sendSigned_then h₁
  refine ⟨query, response, by rw [htr, hrest]; simp, hquery, ?_, trivial⟩
  cases hbody : response.body with
  | taskResult id out provenance => exact ⟨id, out, provenance, rfl⟩
  | taskUpdate id progress message =>
      rw [hbody] at h₂
      have hr := (along_pure_done.mp h₂).2
      split at hr <;> cases hr
  | _ =>
      rw [hbody] at h₂
      cases (along_pure_done.mp h₂).2

theorem Answered.mono {accepts : LdpEnvelope → Prop} {request reply : LdpMessageBody → Prop}
    {tr' : AdapterRuns.Trace} (h : Answered accepts hmac config url request reply tr)
    (hsub : tr ⊆ tr') : Answered accepts hmac config url request reply tr' := by
  obtain ⟨e, response, hsent, hrest⟩ := h
  exact ⟨e, response, hsub hsent, hrest⟩

/-- So was a completed event of a stream. -/
theorem pollUpdates_completed {taskId : String} {contract : Option DelegationContract} {ticks : ℕ}
    {events : List TaskEvent} (h : Along (pollUpdates parseRfc3339 hmac config url taskId contract
      ticks) tr (done (.ok events))) (hcompleted : ∃ event ∈ events, IsCompleted event) :
    Answered (fun _ => True) hmac config url (Queries taskId) IsResult tr := by
  induction ticks generalizing tr events with
  | zero =>
      cases (along_pure_done.mp h).2
      obtain ⟨event, hin, _⟩ := hcompleted
      cases hin
  | succ ticks ih =>
      obtain ⟨query, before, rest, hquery, h₁, htr⟩ := statusQuery_then h
      unfold SessionManager.sendMessage at h₁
      rw [call_bind, along_ask_done] at h₁
      obtain ⟨answer, rest₂, hrest, h₂⟩ := h₁
      have hsub : rest₂ ⊆ tr := by
        rw [htr, hrest]
        intro ev hev
        simp [hev]
      cases answer with
      | error e =>
          cases (along_pure_done.mp h₂).2
          obtain ⟨event, hin, hcompleted⟩ := hcompleted
          rw [List.mem_singleton.mp hin] at hcompleted
          exact hcompleted.elim
      | ok response =>
          dsimp only at h₂
          cases hbody : response.body with
          | taskResult id out provenance =>
              exact ⟨query, response, by rw [htr, hrest]; simp, hquery,
                hbody ▸ ⟨id, out, provenance, rfl⟩, trivial⟩
          | taskUpdate id progress message =>
              rw [hbody] at h₂
              obtain ⟨r, hpoll, hr⟩ := h₂.of_bind_map
              cases r with
              | error e => cases hr
              | ok later =>
                  cases hr
                  refine (ih hpoll ?_).mono hsub
                  obtain ⟨event, hin, hcompleted⟩ := hcompleted
                  rcases List.mem_cons.mp hin with hfirst | hin
                  · rw [hfirst] at hcompleted
                    exact hcompleted.elim
                  · exact ⟨event, hin, hcompleted⟩
          | taskFailed id error =>
              rw [hbody] at h₂
              cases (along_pure_done.mp h₂).2
              obtain ⟨event, hin, hcompleted⟩ := hcompleted
              rw [List.mem_singleton.mp hin] at hcompleted
              exact hcompleted.elim
          | _ =>
              rw [hbody] at h₂
              exact (ih h₂ hcompleted).mono hsub

end Paths

section Runs
variable {parseRfc3339 : String → Option ℤ} {hmac : Hmac} {config : LdpAdapterConfig}
  {k : AdapterConfig}

theorem inserted_of_held (h : Adapting parseRfc3339 hmac config k) {url : String}
    {session : LdpSession} (hl : k.state.sessions.lookup url = some session) :
    ∃ x ∈ k.log, ∃ opened, x.event = ⟨.insertSession url opened, ()⟩ ∧
      opened.sessionId = session.sessionId := by
  induction h generalizing session with
  | refl => cases hl
  | @tail k₁ k₂ _ hmove ih =>
      cases hmove with
      | start operation => exact ih hl
      | @act i operation q next a t hi hm =>
          rcases SessionCache.held_before hm hl with ⟨held, hbefore, hid⟩ | hq
          · obtain ⟨x, hx, opened, hev, hopened⟩ := ih hbefore
            exact ⟨x, List.mem_append_left _ hx, opened, hev, hopened.trans hid⟩
          · subst hq
            exact ⟨_, List.mem_append_right _ (List.mem_singleton_self _), session, rfl, rfl⟩

/-- What the adapter believes was answered, by anyone. -/
theorem adapter_based (h : Adapting parseRfc3339 hmac config k) :
    Based (fun _ => True) hmac config k := by
  constructor
  · intro url session hl
    obtain ⟨x, hx, opened, hev, hid⟩ := inserted_of_held h hl
    have hlt := h.follows.caller x hx
    have halong := h.follows.along x.caller _ _ (List.getElem?_eq_getElem hlt)
    obtain ⟨hello, manifest, capabilities, propose, acceptance, acceptedId, mode, now, hsent,
      hhello, hmanifest, hproposed, hpropose, hacceptance, hsession⟩ :=
      reported_inserts halong (mem_traceOf.mpr ⟨x, hx, rfl, hev⟩)
    have hopened : acceptedId = session.sessionId := by
      rw [← hid, hsession]
      rfl
    refine ⟨x.caller, ⟨hello, manifest, hsent, ⟨_, _, hhello⟩, ⟨_, hmanifest⟩, trivial⟩,
      ⟨propose, acceptance, hproposed, ⟨_, hpropose⟩, ⟨mode, ?_⟩, trivial⟩⟩
    rw [hacceptance, hopened]
  · intro i url taskId output hi
    obtain ⟨r, hstatus, hr⟩ := (h.follows.along i _ _ hi).of_bind_map
    cases r with
    | error e => cases hr
    | ok status =>
        cases hr
        exact status_completed hstatus
  · intro i url task ticks events hi hcompleted
    obtain ⟨r, hstream, hr⟩ := (h.follows.along i _ _ hi).of_bind_map
    cases r with
    | error e => cases hr
    | ok emitted =>
        cases hr
        unfold LdpAdapter.stream at hstream
        rcases hstream.of_bind_done with ⟨_, _, hfailed⟩ | ⟨handle, tr₁, tr₂, _, hpolls, htr⟩
        · cases hfailed
        · rw [htr]
          exact ⟨handle.taskId,
            (pollUpdates_completed hpolls hcompleted).mono (List.subset_append_right _ _)⟩

/-- What verifies among the responses was produced by the server. -/
def Unforged (produced : LdpEnvelope → Prop) (hmac : Hmac) (secret : String)
    (k : AdapterConfig) : Prop :=
  ∀ x ∈ k.log, ∀ url e response, x.event = ⟨.sendMessage url e, .ok response⟩ →
    CarriesValidSignature hmac secret response → produced response

/-- A task that is streamed from a peer without the secret. -/
def forgery : Scene where
  op := .stream "u" { skill := "echo", input := .null } 1
  drawn := "9f1c1f0e-6f7e-4a0b-9a55-0d6a3b1c2d4e"
  now := 0
  reply := LdpEnvelope.new "m3" "t3" "" "ldp:b" "ldp:delegate:local"
    (.taskResult "t" .null (Provenance.new "ldp:b" "1" "t3")) .text

theorem forgery_unsigned (s : ClientState) :
    ∀ ev ∈ (forgery.played parseRfc3339 hmac config s).1, ∀ url e response,
      ev = ⟨.sendMessage url e, .ok response⟩ → response.signature = none := by
  refine exec_events (P := fun ev : Event ClientCall ClientCall.Answer => ∀ url e response,
    ev = ⟨.sendMessage url e, .ok response⟩ → response.signature = none) ?_ _ _
  intro q s url e response hev
  cases q with
  | sendMessage to_ sent =>
      cases hbody : sent.body <;> simp [Scene.surroundings, hbody] at hev <;>
        (rw [← hev.2]; rfl)
  | _ => cases hev

theorem forgery_plays : ∃ k output,
    Adapting (fun _ => none) submissionMac ClientSigning.signingConfig k ∧
    k.calls = [(forgery.op, done (.ok (.events [.completed output])))] ∧
    traceOf 0 k.log =
      (forgery.played (fun _ => none) submissionMac ClientSigning.signingConfig .empty).1 := by
  have hidle : Adapting (fun _ => none) submissionMac ClientSigning.signingConfig
      (idle ClientState.empty) := .refl
  obtain ⟨k, hk, _, _, _, hcalls, htrace, _⟩ := forgery.plays hidle drewFrom_idle (by simp)
  exact ⟨k, _, hk, hcalls, htrace⟩

theorem unforged_of_unsigned {secret : String} {produced : LdpEnvelope → Prop}
    (h : ∀ x ∈ k.log, ∀ url e response, x.event = ⟨.sendMessage url e, .ok response⟩ →
      response.signature = none) : Unforged produced hmac secret k := by
  intro x hx url e response hev hvalid
  obtain ⟨signature, hsigned, _⟩ := hvalid
  rw [h x hx url e response hev] at hsigned
  cases hsigned

/-- A peer without the secret has a task reported as completed. -/
theorem forgery_believed : ∃ k,
    Adapting (fun _ => none) submissionMac ClientSigning.signingConfig k ∧
    Unforged (fun _ => False) submissionMac "secret" k ∧
    ¬ Based (CarriesValidSignature submissionMac "secret") submissionMac
      ClientSigning.signingConfig k := by
  obtain ⟨k, output, hk, hcalls, htrace⟩ := forgery_plays
  have hunsigned : ∀ x ∈ k.log, ∀ url e response, x.event = ⟨.sendMessage url e, .ok response⟩ →
      response.signature = none := by
    intro x hx
    have hcaller : x.caller = 0 := by
      have hlt := hk.follows.caller x hx
      rw [hcalls, List.length_singleton] at hlt
      omega
    exact forgery_unsigned _ _ (htrace ▸ mem_traceOf.mpr ⟨x, hx, hcaller, rfl⟩)
  refine ⟨k, hk, unforged_of_unsigned hunsigned, ?_⟩
  intro hbased
  obtain ⟨taskId, e, response, hsent, _, _, signature, hsigned, _⟩ :=
    hbased.stream 0 "u" _ 1 [.completed output] (by rw [hcalls]; rfl)
      ⟨.completed output, List.mem_singleton_self _, trivial⟩
  obtain ⟨x, hx, _, hev⟩ := mem_traceOf.mp hsent
  rw [hunsigned x hx _ _ _ hev] at hsigned
  cases hsigned

end Runs
end Adapter

namespace Client
open JsonValues EnvelopeSigning PythonMessages PythonSigning PythonClient PythonTasks
open PythonSessionCache

/-- Some request of this kind was answered in this way, by a response that is
accepted. -/
def Answered (accepts : LdpEnvelope → Prop) (hmac : Hmac) (client : LdpClient) (url : String)
    (request reply : LdpMessageBody → Prop) (tr : TaskTrace) : Prop :=
  ∃ e back document made, ⟨.client (.postMessage url
      (PythonSigning.signIfConfigured hmac client.signingSecret e).modelDump), .ok document⟩ ∈ tr ∧
    LdpEnvelope.modelValidate made document = some back ∧
    request e.body ∧ reply back.body ∧ accepts back

def IsHello (body : LdpMessageBody) : Prop := ∃ delegateId modes, body = .hello delegateId modes

def IsProposal (body : LdpMessageBody) : Prop := ∃ config, body = .sessionPropose config

/-- An answer to a proposal that is no rejection opens the session it names. -/
def Opens (sessionId : String) (body : LdpMessageBody) : Prop :=
  body.type ≠ "SESSION_REJECT" ∧ ∃ proposed, sessionId = LdpClient.acceptedId body proposed

def Submits (task : TaskArguments) (body : LdpMessageBody) : Prop :=
  ∃ taskId, body = taskSubmit taskId task.skill task.inputData task.contract

def IsResult (body : LdpMessageBody) : Prop := body.type = "TASK_RESULT"

/-- What the client holds and reports rests on responses that are accepted. -/
structure Based (accepts : LdpEnvelope → Prop) (hmac : Hmac) (client : LdpClient)
    (k : CallConfig) : Prop where
  cached : ∀ url session, k.state.sessions.lookup url = some session → ∃ i,
    Answered accepts hmac client url IsHello (fun _ => True) (traceOf i k.log) ∧
    Answered accepts hmac client url IsProposal (Opens session.sessionId) (traceOf i k.log)
  submitted : ∀ (i : ℕ) url task taskId output provenance verdict,
    k.calls[i]? = some (.submitTask url task,
      done (.ok (.report (.result taskId output provenance verdict)))) →
    Answered accepts hmac client url (Submits task) IsResult (traceOf i k.log)

section Paths
variable {fromIsoFormat : String → Option Deadline} {hmac : Hmac} {client : LdpClient}
  {url : String} {tr : TaskTrace}

theorem Answered.mono {accepts : LdpEnvelope → Prop} {request reply : LdpMessageBody → Prop}
    {tr' : TaskTrace} (h : Answered accepts hmac client url request reply tr) (hsub : tr ⊆ tr') :
    Answered accepts hmac client url request reply tr' := by
  obtain ⟨e, back, document, made, hsent, hrest⟩ := h
  exact ⟨e, back, document, made, hsub hsent, hrest⟩

theorem answered_of_exchanged {tr₀ : PythonSessionCache.Trace} {e back : LdpEnvelope}
    {request reply : LdpMessageBody → Prop} (h : Exchanged client hmac url tr₀ e back)
    (hin : tr₀.map liftedEvent ⊆ tr) (hrequest : request e.body) (hreply : reply back.body) :
    Answered (fun _ => True) hmac client url request reply tr := by
  obtain ⟨document, made, hsent, hread⟩ := h
  exact ⟨e, back, document, made, hin (List.mem_map_of_mem hsent), hread, hrequest, hreply, trivial⟩

/-- A report that is a result was read off a result. -/
theorem concludeTask_result {contract : Option DelegationContract} {id : String}
    {body : LdpMessageBody} {taskId : Option String} {output : Value}
    {provenance : Option Value} {verdict : Option Verdict}
    (h : Along (concludeTask fromIsoFormat contract id body) tr
      (done (.ok (.result taskId output provenance verdict)))) : IsResult body := by
  unfold concludeTask at h
  split at h
  · next hresult => exact hresult
  · split at h
    · cases (along_throw_done.mp h).2
    · cases (along_pure_done.mp h).2

theorem submitIn_result {task : TaskArguments} {session : LdpSession} {taskId : Option String}
    {output : Value} {provenance : Option Value} {verdict : Option Verdict}
    (h : Along (submitIn fromIsoFormat hmac client url task session) tr
      (done (.ok (.result taskId output provenance verdict)))) :
    Answered (fun _ => True) hmac client url (Submits task) IsResult tr := by
  unfold submitIn at h
  rcases h.of_bind_done with ⟨_, _, hr⟩ | ⟨id, tr₁, rest₁, _, h₁, htr₁⟩
  · cases hr
  rcases h₁.of_bind_done with ⟨_, _, hr⟩ | ⟨submit, tr₂, rest₂, hcreated, h₂, htr₂⟩
  · cases hr
  rcases h₂.of_bind_done with ⟨_, _, hr⟩ | ⟨response, tr₃, rest₃, hsent, h₃, htr₃⟩
  · cases hr
  rcases h₃.of_bind_done with ⟨_, _, hr⟩ | ⟨_, tr₄, rest₄, _, h₄, _⟩
  · cases hr
  have hresult : IsResult response.body := concludeTask_result h₄
  obtain ⟨tr₀, hcreate, _⟩ := along_lifted_pure hcreated
  obtain ⟨tr₀', hexchange, htr₃'⟩ := along_lifted_pure hsent
  have hsubmit : Submits task submit.body := by
    have hdone : Along (createSubmit client.delegateId session
        (taskSubmit id task.skill task.inputData task.contract)) tr₀ (done (.ok submit)) := hcreate
    unfold createSubmit PythonClient.uuid4 isoNow at hdone
    simp only [call_bind, pure_eq, along_ask_done, along_pure_done] at hdone
    obtain ⟨_, _, _, _, _, _, _, he⟩ := hdone
    cases he
    exact ⟨id, rfl⟩
  apply answered_of_exchanged (sendMessage_exchanged hexchange) _ hsubmit hresult
  rw [htr₁, htr₂, htr₃, htr₃']
  intro ev hev
  simp [hev]

theorem submitTask_result {task : TaskArguments} {taskId : Option String} {output : Value}
    {provenance : Option Value} {verdict : Option Verdict}
    (h : Along (submitTask fromIsoFormat hmac client url task) tr
      (done (.ok (.result taskId output provenance verdict)))) :
    Answered (fun _ => True) hmac client url (Submits task) IsResult tr := by
  unfold submitTask at h
  split at h
  · exact submitIn_result h
  · rcases h.of_bind_done with ⟨_, _, hr⟩ | ⟨session, tr₁, tr₂, _, h₂, htr⟩
    · cases hr
    · rw [htr]
      exact (submitIn_result h₂).mono (List.subset_append_right _ _)

end Paths

section Runs
variable {fromIsoFormat : String → Option Deadline} {hmac : Hmac} {client : LdpClient}
  {registered : List PayloadModes.PayloadMode} {k : CallConfig}

/-- What the client believes was answered, by anyone. -/
theorem client_based (h : PythonSessionCache.Reached fromIsoFormat hmac client registered k) :
    Based (fun _ => True) hmac client k := by
  constructor
  · intro url session hl
    obtain ⟨x, hx, opened, hev, hsame⟩ := entry_recorded h hl
    have hlt := h.follows.caller x hx
    have halong := h.follows.along x.caller _ _ (List.getElem?_eq_getElem hlt)
    obtain ⟨tr₀, read, document, card, hin, hfounded⟩ :=
      program_records halong (mem_traceOf.mpr ⟨x, hx, rfl, hev⟩)
    obtain ⟨hello, greeting, hgreeted, hhello⟩ := hfounded.greeted
    obtain ⟨propose, answer, proposed, hproposed, hpropose, haccepted, hid⟩ := hfounded.proposed
    have hsession : session.sessionId = opened.sessionId := by rw [hsame]
    refine ⟨x.caller, answered_of_exchanged hgreeted hin ⟨_, _, hhello⟩ trivial,
      answered_of_exchanged hproposed hin ⟨_, hpropose⟩ ⟨haccepted, proposed, ?_⟩⟩
    rw [hsession, hid]
  · intro i url task taskId output provenance verdict hi
    obtain ⟨r, hsubmit, hr⟩ := (h.follows.along i _ _ hi).of_bind_map
    cases r with
    | error e => cases hr
    | ok report =>
        cases hr
        exact submitTask_result hsubmit

def CarriesValidSignature (hmac : Hmac) (secret : String) (envelope : LdpEnvelope) : Prop :=
  ∃ signature, envelope.signature = some signature ∧
    PythonSigning.verifyEnvelope hmac envelope secret signature = .ok true

/-- What verifies among the responses was produced by the server. -/
def Unforged (produced : LdpEnvelope → Prop) (hmac : Hmac) (secret : String)
    (k : CallConfig) : Prop :=
  ∀ x ∈ k.log, ∀ url sent answer, x.event = ⟨.client (.postMessage url sent), .ok answer⟩ →
    ∀ made back, LdpEnvelope.modelValidate made answer = some back →
      CarriesValidSignature hmac secret back → produced back

/-- A result that nobody has signed, for an answer to anything. -/
def forged : Value :=
  (LdpEnvelope.create "m" "1970-01-01T00:00:00+00:00" "s" "ldp:b" "ldp:client:default"
    { type := "TASK_RESULT", taskId := some "t" } .text).modelDump

theorem forged_unsigned {made : Factories} {back : LdpEnvelope}
    (h : LdpEnvelope.modelValidate made forged = some back) : back.signature = none := by
  have hread : (LdpEnvelope.modelValidate made forged).map (·.signature) = some none := rfl
  rw [h] at hread
  exact Option.some.inj hread

def signingClient : LdpClient where
  signingSecret := some "secret"

/-- The client's task is completed by an answer without a signature. -/
theorem forged_plays : ∃ k provenance,
    PythonSessionCache.Reached (fun _ => none) (fun _ _ => .empty) signingClient [] k ∧
    k.calls = [(.submitTask "u" { skill := "echo", inputData := .null },
      done (.ok (.report (.result (some "t") .null provenance none))))] ∧
    ∀ x ∈ k.log, ∀ url sent answer, x.event = ⟨.client (.postMessage url sent), .ok answer⟩ →
      answer = forged := by
  let out := Program.exec (answering forged plainCard.modelDump ⟨"m", "t", "c", "t", "t"⟩)
    (PythonTasks.Operation.program (fun _ => none) (fun _ _ => .empty) signingClient
      (.submitTask "u" { skill := "echo", inputData := .null })) ⟨∅, []⟩
  have hrun : Run TaskCall.Meaning Quiet (PythonTasks.Operation.program (fun _ => none)
      (fun _ _ => .empty) signingClient (.submitTask "u" { skill := "echo", inputData := .null }))
      ⟨∅, []⟩ out.1 out.2.1 out.2.2 :=
    exec_run _ (answering_meaning _ _ _) _ _
  have hforged : ∀ ev ∈ out.1, ∀ url sent answer,
      ev = ⟨.client (.postMessage url sent), .ok answer⟩ → answer = forged := by
    refine exec_events (P := fun ev : Event TaskCall TaskCall.Answer => ∀ url sent answer,
      ev = ⟨.client (.postMessage url sent), .ok answer⟩ → answer = forged) ?_ _ _
    intro q s url sent answer hev
    cases q with
    | client q =>
        cases q <;> cases hev
        rfl
    | _ => cases hev
  obtain ⟨steps, hmoves, _, hevents⟩ := Moves.call (idle (⟨∅, []⟩ : PythonTasks.ClientState)) hrun
  refine ⟨_, _, hmoves, rfl, ?_⟩
  intro x hx
  apply hforged
  rw [← hevents]
  exact List.mem_map_of_mem hx

/-- A peer without the secret has a task reported as completed. -/
theorem forged_believed : ∃ k,
    PythonSessionCache.Reached (fun _ => none) (fun _ _ => .empty) signingClient [] k ∧
    Unforged (fun _ => False) (fun _ _ => .empty) "secret" k ∧
    ¬ Based (CarriesValidSignature (fun _ _ => .empty) "secret") (fun _ _ => .empty)
      signingClient k := by
  obtain ⟨k, provenance, hk, hcalls, hforged⟩ := forged_plays
  refine ⟨k, hk, ?_, ?_⟩
  · intro x hx url sent answer hev made back hread hvalid
    rw [hforged x hx url sent answer hev] at hread
    obtain ⟨signature, hsigned, _⟩ := hvalid
    rw [forged_unsigned hread] at hsigned
    cases hsigned
  · intro hbased
    obtain ⟨e, back, document, made, hsent, hread, _, _, signature, hsigned, _⟩ :=
      hbased.submitted 0 "u" _ (some "t") .null provenance none (by rw [hcalls]; rfl)
    obtain ⟨x, hx, _, hev⟩ := mem_traceOf.mp hsent
    rw [hforged x hx _ _ _ hev] at hread
    rw [forged_unsigned hread] at hsigned
    cases hsigned

end Runs
end Client

end LdpProtocol.ResponseAuthenticity
