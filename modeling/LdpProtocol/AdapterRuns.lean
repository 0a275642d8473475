import LdpProtocol.ClientQuestions
import LdpProtocol.ConcurrentCalls

/-!
# Concurrent calls of one adapter

Any number of calls share the session and contract maps of an adapter. A
contract is stored once, under the id its task drew, and is never removed; ids
drawn by different calls differ. A status call that starts after a task was
submitted therefore finds the contract of that task and no other. What a call
reports is decided by its last poll.
-/
namespace LdpProtocol.AdapterRuns
open InteractivePrograms InterferedRuns ConcurrentCalls Relation
open InteractivePrograms.Program (call_bind pure_eq uses_pure)
open JsonValues PayloadModes MessageTypes EnvelopeSigning SessionManager LdpAdapter
open ClientQuestions

abbrev Trace := List (Event ClientCall ClientCall.Answer)

/-- What a call gives back. -/
inductive Report where
  | handle (handle : TaskHandle)
  | events (events : List TaskEvent)
  | status (status : TaskStatus)
  | nothing

section
variable (parseRfc3339 : String → Option ℤ) (hmac : Hmac) (config : LdpAdapterConfig)

def reported : Operation → ClientProgram Report
  | .invoke url task => do
      let handle ← LdpAdapter.invoke hmac config url task
      pure (.handle handle)
  | .stream url task ticks => do
      let events ← LdpAdapter.stream parseRfc3339 hmac config url task ticks
      pure (.events events)
  | .status url taskId => do
      let status ← LdpAdapter.status parseRfc3339 hmac config url taskId
      pure (.status status)
  | .cancel url taskId => do
      LdpAdapter.cancel hmac config url taskId
      pure .nothing
  | .getOrEstablish url => do
      let _ ← SessionManager.getOrEstablish hmac config url
      pure .nothing
  | .close url => do
      SessionManager.close config url
      pure .nothing
  | .closeAll => do
      SessionManager.closeAll config
      pure .nothing

abbrev AdapterConfig := Config Operation ClientCall ClientCall.Answer String Report ClientState

/-- The configurations that calls lead to, from empty maps. -/
abbrev Adapting (k : AdapterConfig) : Prop :=
  Moves ClientCall.Meaning (reported parseRfc3339 hmac config) (idle .empty) k

end

/-- No id is drawn by two calls. -/
def FreshIds (k : AdapterConfig) : Prop :=
  ∀ i j id, ⟨.newV4, id⟩ ∈ traceOf i k.log → ⟨.newV4, id⟩ ∈ traceOf j k.log → i = j

/-- A status query is sent. -/
def IsPoll : ClientCall → Prop
  | .sendMessage _ message =>
      ∃ taskId progress text, message.body = .taskUpdate taskId progress text
  | _ => False

def Inserts (q : ClientCall) (taskId : String) (contract : DelegationContract) : Prop :=
  q = .insertContract taskId contract

/-- The questions that neither poll nor store a contract. -/
def Plain (q : ClientCall) : Prop := ¬ IsPoll q ∧ ∀ taskId contract, ¬ Inserts q taskId contract

abbrev AsksPlainly {α : Type} (p : ClientProgram α) : Prop := p.Uses (fun _ _ => True) Plain

section Sessions
variable {hmac : Hmac} {config : LdpAdapterConfig} {url : String}

theorem plain_sendMessage {message : LdpEnvelope}
    (h : ∀ taskId progress text, message.body ≠ .taskUpdate taskId progress text) :
    Plain (.sendMessage url message) := by
  constructor
  · intro hpoll
    obtain ⟨taskId, progress, text, hbody⟩ := hpoll
    exact h taskId progress text hbody
  · intro taskId contract hinsert
    cases hinsert

theorem ordinary_plain : Ordinary Plain := by
  constructor <;> exact ⟨id, fun _ _ h => by cases h⟩

theorem sends_plain {body : LdpMessageBody}
    (h : ∀ taskId progress text, body ≠ .taskUpdate taskId progress text) :
    Sends hmac config Plain url body := by
  intro e he
  apply plain_sendMessage
  rw [signIfConfigured_body, he]
  exact h

theorem getOrEstablish_plain : AsksPlainly (getOrEstablish hmac config url) := by
  have hopen : AsksPlainly (establishSession hmac config url) :=
    establishSession_uses ordinary_plain (sends_plain (by simp)) fun _ => sends_plain (by simp)
  apply getOrEstablish_uses ordinary_plain ?_ hopen
  · exact fun _ => ⟨id, fun _ _ h => by cases h⟩
  · exact ⟨id, fun _ _ h => by cases h⟩

theorem close_plain (url : String) : AsksPlainly (close config url) := by
  apply close_uses ordinary_plain
  · exact ⟨id, fun _ _ h => by cases h⟩
  · exact fun closeMsg hbody => plain_sendMessage (by simp [hbody])

theorem cancel_plain (taskId : String) : AsksPlainly (LdpAdapter.cancel hmac config url taskId) :=
  cancel_uses ordinary_plain (sends_plain (by simp))

theorem closeAll_plain : AsksPlainly (closeAll config) :=
  closeAll_uses ⟨id, fun _ _ h => by cases h⟩ close_plain

end Sessions

section Paths
variable {parseRfc3339 : String → Option ℤ} {hmac : Hmac} {config : LdpAdapterConfig}
  {url taskId : String} {task : TaskRequest} {tr : Trace}

/-- After its id was drawn, a submission stores its own contract under it. -/
abbrev StoresOwn (taskId : String) (task : TaskRequest) {α : Type} (p : ClientProgram α) : Prop :=
  p.Uses (fun _ _ => True) fun q => ¬ IsPoll q ∧
    ∀ id contract, Inserts q id contract → id = taskId ∧ task.contract = some contract

theorem submit_storesOwn {session : LdpSession} : StoresOwn taskId task (do
    let submit ← newEnvelope session.sessionId config.delegateId session.remoteDelegateId
      (.taskSubmit taskId task.skill task.input task.contract) session.payload.mode
    let _ ← sendSigned hmac config url submit
    storeContract taskId task.contract
    touch url
    pure (⟨taskId, url⟩ : TaskHandle)) := by
  apply submit_uses
  · constructor <;> exact ⟨id, fun _ _ h => by cases h⟩
  · intro submit hbody
    have hplain : Sends hmac config Plain url
        (.taskSubmit taskId task.skill task.input task.contract) := sends_plain (by simp)
    obtain ⟨hpoll, hstores⟩ := hplain submit hbody
    exact ⟨hpoll, fun id contract hinsert => (hstores id contract hinsert).elim⟩
  · intro contract hcontract
    refine ⟨id, ?_⟩
    intro id stored hinsert
    cases hinsert
    exact ⟨rfl, hcontract⟩
  · exact ⟨id, fun _ _ h => by cases h⟩

/-- A submission polls for nothing and stores only its own contract. -/
theorem invoke_along {p : ClientProgram TaskHandle}
    (h : Along (LdpAdapter.invoke hmac config url task) tr p) : ∀ ev ∈ tr, ¬ IsPoll ev.1 ∧
      ∀ id contract, Inserts ev.1 id contract →
        ⟨.newV4, id⟩ ∈ tr ∧ task.contract = some contract := by
  intro ev hev
  unfold LdpAdapter.invoke at h
  have hplain : AsksPlainly (getOrEstablish hmac config url) := getOrEstablish_plain
  rcases h.of_bind with ⟨p', hp', _⟩ | ⟨session, tr₁, tr₂, h₁, h₂, htr⟩
  · have hq := hp'.uses hplain ev hev
    exact ⟨hq.1, fun id contract hinsert => (hq.2 id contract hinsert).elim⟩
  · rw [htr] at hev ⊢
    rcases List.mem_append.mp hev with hev | hev
    · have hq := h₁.uses hplain ev hev
      exact ⟨hq.1, fun id contract hinsert => (hq.2 id contract hinsert).elim⟩
    · unfold SessionManager.newV4 at h₂
      rw [call_bind] at h₂
      rcases along_ask.mp h₂ with ⟨hnil, _⟩ | ⟨taskId, tr₃, htr₂, h₃⟩
      · rw [hnil] at hev
        cases hev
      · rw [htr₂] at hev ⊢
        rcases List.mem_cons.mp hev with hev | hev
        · rw [hev]
          exact ⟨id, fun _ _ hinsert => by cases hinsert⟩
        · obtain ⟨hpoll, hstores⟩ := h₃.uses submit_storesOwn ev hev
          refine ⟨hpoll, ?_⟩
          intro id contract hinsert
          obtain ⟨hid, hcontract⟩ := hstores id contract hinsert
          rw [hid]
          exact ⟨by simp, hcontract⟩

/-- A submission that has returned has drawn its id and stored its contract. -/
theorem invoke_done {handle : TaskHandle}
    (h : Along (LdpAdapter.invoke hmac config url task) tr (done (.ok handle))) :
    ⟨.newV4, handle.taskId⟩ ∈ tr ∧ ∀ contract, task.contract = some contract →
      ∃ ev ∈ tr, ev.1 = .insertContract handle.taskId contract := by
  unfold LdpAdapter.invoke at h
  rcases h.of_bind_done with ⟨e, _, hr⟩ | ⟨session, tr₁, tr₂, _, h₂, htr⟩
  · cases hr
  · unfold SessionManager.newV4 newEnvelope sendSigned at h₂
    simp only [call_bind, along_ask_done] at h₂
    obtain ⟨taskId, tr₃, htr₂, h₃⟩ := h₂
    rcases h₃.of_bind_done with ⟨e, _, hr⟩ | ⟨submit, tr₄, tr₅, _, h₅, htr₃⟩
    · cases hr
    · rcases h₅.of_bind_done with ⟨e, _, hr⟩ | ⟨response, tr₆, tr₇, _, h₇, htr₅⟩
      · cases hr
      · rcases h₇.of_bind_done with ⟨e, _, hr⟩ | ⟨_, tr₈, tr₉, h₈, h₉, htr₇⟩
        · cases hr
        · unfold touch touchSession at h₉
          simp only [call_bind, pure_eq, along_ask_done, along_pure_done] at h₉
          obtain ⟨_, _, _, _, hhandle⟩ := h₉
          cases hhandle
          refine ⟨by rw [htr, htr₂]; simp, ?_⟩
          intro contract hcontract
          rw [hcontract] at h₈
          unfold storeContract insertContract at h₈
          rcases along_ask.mp h₈ with ⟨_, hpure⟩ | ⟨a, rest, htr₈, _⟩
          · cases hpure
          · refine ⟨⟨.insertContract taskId contract, a⟩, ?_, rfl⟩
            rw [htr, htr₂, htr₃, htr₅, htr₇, htr₈]
            simp

abbrev NeverInserts {α : Type} (p : ClientProgram α) : Prop :=
  p.Uses (fun _ _ => True) fun q => ∀ taskId contract, ¬ Inserts q taskId contract

theorem neverInserts_of_plain {α : Type} {p : ClientProgram α} (h : AsksPlainly p) :
    NeverInserts p := h.mono fun _ hq => hq.2

theorem ordinary_neverInserts :
    Ordinary fun q => ∀ taskId contract, ¬ Inserts q taskId contract := by
  constructor <;> exact fun _ _ h => by cases h

theorem pollUpdates_neverInserts (contract : Option DelegationContract) (ticks : ℕ) :
    NeverInserts (pollUpdates parseRfc3339 hmac config url taskId contract ticks) :=
  pollUpdates_uses ordinary_neverInserts (fun _ _ _ _ h => by cases h) contract ticks

theorem status_neverInserts :
    NeverInserts (LdpAdapter.status parseRfc3339 hmac config url taskId) :=
  status_uses ordinary_neverInserts (fun _ _ _ _ h => by cases h) fun _ _ h => by cases h

/-- The operation submits the task. -/
def Submits (task : TaskRequest) (op : Operation) : Prop :=
  ∃ url, op = .invoke url task ∨ ∃ ticks, op = .stream url task ticks

theorem Submits.unique {task task' : TaskRequest} {op : Operation} (h : Submits task op)
    (h' : Submits task' op) : task = task' := by
  obtain ⟨url, h⟩ := h
  obtain ⟨url', h'⟩ := h'
  rcases h with rfl | ⟨ticks, rfl⟩
  · rcases h' with h' | ⟨ticks', h'⟩ <;> cases h'
    rfl
  · rcases h' with h' | ⟨ticks', h'⟩ <;> cases h'
    rfl

/-- A contract is stored by the submission it came with, under the id that was
drawn for it. -/
theorem inserts_origin {op : Operation} {p : ClientProgram Report}
    (h : Along (reported parseRfc3339 hmac config op) tr p)
    {ev : Event ClientCall ClientCall.Answer} (hev : ev ∈ tr) {contract : DelegationContract}
    (hinsert : Inserts ev.1 taskId contract) : ⟨.newV4, taskId⟩ ∈ tr ∧
      ∃ task, Submits task op ∧ task.contract = some contract := by
  have hnever : NeverInserts (reported parseRfc3339 hmac config op) → False :=
    fun hp => h.uses hp ev hev taskId contract hinsert
  cases op with
  | invoke url task =>
      rcases h.of_bind with ⟨p', hp', _⟩ | ⟨handle, tr₁, tr₂, h₁, h₂, htr⟩
      · obtain ⟨hid, hcontract⟩ := (invoke_along hp' ev hev).2 _ _ hinsert
        exact ⟨hid, task, ⟨url, .inl rfl⟩, hcontract⟩
      · rw [(along_pure.mp h₂).1, List.append_nil] at htr
        rw [htr] at hev ⊢
        obtain ⟨hid, hcontract⟩ := (invoke_along h₁ ev hev).2 _ _ hinsert
        exact ⟨hid, task, ⟨url, .inl rfl⟩, hcontract⟩
  | stream url task ticks =>
      have hinner : ∃ p',
          Along (LdpAdapter.stream parseRfc3339 hmac config url task ticks) tr p' := by
        rcases h.of_bind with ⟨p', hp', _⟩ | ⟨events, tr₁, tr₂, h₁, h₂, htr⟩
        · exact ⟨p', hp'⟩
        · rw [(along_pure.mp h₂).1, List.append_nil] at htr
          exact ⟨_, htr ▸ h₁⟩
      obtain ⟨p', hstream⟩ := hinner
      rcases hstream.of_bind with ⟨p'', hp'', _⟩ | ⟨handle, tr₁, tr₂, h₁, h₂, htr⟩
      · obtain ⟨hid, hcontract⟩ := (invoke_along hp'' ev hev).2 _ _ hinsert
        exact ⟨hid, task, ⟨url, .inr ⟨ticks, rfl⟩⟩, hcontract⟩
      · rw [htr] at hev ⊢
        rcases List.mem_append.mp hev with hev | hev
        · obtain ⟨hid, hcontract⟩ := (invoke_along h₁ ev hev).2 _ _ hinsert
          exact ⟨List.mem_append_left _ hid, task, ⟨url, .inr ⟨ticks, rfl⟩⟩, hcontract⟩
        · exact (h₂.uses (pollUpdates_neverInserts _ _) ev hev _ _ hinsert).elim
  | status url taskId => exact (hnever (status_neverInserts.bind fun _ => uses_pure _)).elim
  | cancel url taskId =>
      exact (hnever ((neverInserts_of_plain (cancel_plain taskId)).bind
        fun _ => uses_pure _)).elim
  | getOrEstablish url =>
      exact (hnever ((neverInserts_of_plain getOrEstablish_plain).bind
        fun _ => uses_pure _)).elim
  | close url =>
      exact (hnever ((neverInserts_of_plain (close_plain url)).bind
        fun _ => uses_pure _)).elim
  | closeAll =>
      exact (hnever ((neverInserts_of_plain closeAll_plain).bind
        fun _ => uses_pure _)).elim

end Paths

section Runs
variable {parseRfc3339 : String → Option ℤ} {hmac : Hmac} {config : LdpAdapterConfig}
  {k k₁ : AdapterConfig}

/-- The task has been submitted with this handle, by `invoke` or by a stream that
has come to its polls. -/
def Submitted (hmac : Hmac) (config : LdpAdapterConfig) (k : AdapterConfig) (task : TaskRequest)
    (handle : TaskHandle) : Prop :=
  ∃ (i : ℕ) (url : String),
    k.calls[i]? = some (.invoke url task, done (.ok (.handle handle))) ∨
    ∃ ticks p started polls, k.calls[i]? = some (.stream url task ticks, p) ∧
      traceOf i k.log = started ++ polls ∧
      Along (LdpAdapter.invoke hmac config url task) started (done (.ok handle))

/-- What is stored under one id. -/
def contractWritten (taskId : String) : ClientCall → Option (Option DelegationContract)
  | .insertContract id contract => if id = taskId then some (some contract) else none
  | _ => none

theorem contractWritten_cell (taskId : String) (q : ClientCall) (s : ClientState) (a : q.Answer)
    (t : ClientState) (h : ClientCall.Meaning q s a t) :
    t.contracts.lookup taskId = (contractWritten taskId q).getD (s.contracts.lookup taskId) := by
  cases q with
  | insertContract id contract =>
      have ht : t = _ := h
      rw [ht]
      by_cases hid : id = taskId
      · subst hid
        rw [contractWritten, if_pos rfl]
        exact AList.lookup_insert s.contracts
      · rw [contractWritten, if_neg hid]
        exact AList.lookup_insert_ne (Ne.symm hid)
  | getSession | removeSession | sessionUrls | getContract =>
      rw [h.2]
      rfl
  | touchSession =>
      obtain ⟨now, ht⟩ := h
      rw [ht]
      rfl
  | _ =>
      have ht : t = _ := h
      rw [ht]
      rfl

theorem contractWritten_eq_some {taskId : String} {q : ClientCall}
    {stored : Option DelegationContract} (h : contractWritten taskId q = some stored) :
    ∃ contract, Inserts q taskId contract ∧ stored = some contract := by
  cases q with
  | insertContract id contract =>
      by_cases hid : id = taskId
      · subst hid
        rw [contractWritten, if_pos rfl] at h
        exact ⟨contract, rfl, (Option.some.inj h).symm⟩
      · rw [contractWritten, if_neg hid] at h
        cases h
  | _ => cases h

/-- A submitted task has drawn its id and stored its contract. -/
theorem Submitted.stored (h : Adapting parseRfc3339 hmac config k) {task : TaskRequest}
    {handle : TaskHandle} (hs : Submitted hmac config k task handle) : ∃ i op p,
      k.calls[i]? = some (op, p) ∧ Submits task op ∧ ⟨.newV4, handle.taskId⟩ ∈ traceOf i k.log ∧
      ∀ contract, task.contract = some contract →
        ∃ x ∈ k.log, Inserts x.event.1 handle.taskId contract := by
  have hstarted : ∃ i op p started polls url, k.calls[i]? = some (op, p) ∧ Submits task op ∧
      traceOf i k.log = started ++ polls ∧
      Along (LdpAdapter.invoke hmac config url task) started (done (.ok handle)) := by
    obtain ⟨i, url, hs⟩ := hs
    rcases hs with hcall | ⟨ticks, p, started, polls, hcall, htr, hinvoke⟩
    · have hpath := h.follows.along _ _ _ hcall
      rcases hpath.of_bind_done with ⟨e, _, hr⟩ | ⟨handle', tr₁, tr₂, hinvoke, hreport, htr⟩
      · cases hr
      · simp only [pure_eq, along_pure_done] at hreport
        obtain ⟨_, hhandle⟩ := hreport
        cases hhandle
        exact ⟨i, _, _, tr₁, tr₂, url, hcall, ⟨url, .inl rfl⟩, htr, hinvoke⟩
    · exact ⟨i, _, p, started, polls, url, hcall, ⟨url, .inr ⟨ticks, rfl⟩⟩, htr, hinvoke⟩
  obtain ⟨i, op, p, started, polls, url, hcall, hop, htr, hinvoke⟩ := hstarted
  obtain ⟨hid, hstored⟩ := invoke_done hinvoke
  refine ⟨i, op, p, hcall, hop, ?_, ?_⟩
  · rw [htr]
    exact List.mem_append_left _ hid
  · intro contract hcontract
    obtain ⟨ev, hev, hinsert⟩ := hstored contract hcontract
    have hown : ev ∈ traceOf i k.log := by
      rw [htr]
      exact List.mem_append_left _ hev
    obtain ⟨x, hx, _, hevent⟩ := mem_traceOf.mp hown
    exact ⟨x, hx, by rw [Inserts, hevent, hinsert]⟩

/-- A call that starts after a task was submitted finds the contract the task
was submitted with, or none when it had none. -/
theorem contract_found (h : Adapting parseRfc3339 hmac config k) (hfresh : FreshIds k)
    (h₁ : Adapting parseRfc3339 hmac config k₁)
    (hto : Moves ClientCall.Meaning (reported parseRfc3339 hmac config) k₁ k)
    {task : TaskRequest} {handle : TaskHandle}
    (hsubmitted : Submitted hmac config k₁ task handle) {j : ℕ}
    (hj : k₁.calls.length ≤ j) {found : Option DelegationContract}
    (hasked : ⟨.getContract handle.taskId, found⟩ ∈ traceOf j k.log) : found = task.contract := by
  obtain ⟨i, op, p₁, hcall₁, hop, hid₁, hstored₁⟩ := hsubmitted.stored h₁
  obtain ⟨⟨more₁, hmore₁⟩, hcalls⟩ := hto.persist
  obtain ⟨p, hcall, _⟩ := hcalls _ _ _ hcall₁
  have hdrawn : ⟨.newV4, handle.taskId⟩ ∈ traceOf i k.log := by
    rw [hmore₁, traceOf_append]
    exact List.mem_append_left _ hid₁
  obtain ⟨y, hy, hcaller, hevent⟩ := mem_traceOf.mp hasked
  obtain ⟨k₂, h₂, hto₂, hbefore, hstate⟩ := Moves.moment h₁ hto hy (by omega)
  obtain ⟨t, hmeant⟩ := h.meant y hy
  rw [hevent, ← hstate] at hmeant
  have hfound : found = k₂.state.contracts.lookup handle.taskId := hmeant.1
  rw [hfound]
  rcases Moves.cell (contractWritten_cell handle.taskId) h₂ with ⟨x, hlast, hwritten⟩ |
    ⟨hnone, hempty⟩
  · obtain ⟨contract, hinsert, hstored⟩ := contractWritten_eq_some hwritten
    obtain ⟨more, hmore⟩ := hto₂.persist.1
    have hx : x ∈ k.log := by
      rw [hmore]
      exact List.mem_append_left _ hlast.mem
    obtain ⟨call, hown⟩ : ∃ call, k.calls[x.caller]? = some call :=
      ⟨_, List.getElem?_eq_getElem (h.follows.caller x hx)⟩
    have hev : x.event ∈ traceOf x.caller k.log := mem_traceOf.mpr ⟨x, hx, rfl, rfl⟩
    obtain ⟨hid, task', hop', hcontract⟩ :=
      inserts_origin (h.follows.along _ _ _ hown) hev hinsert
    have hsame : x.caller = i := hfresh _ _ _ hid hdrawn
    rw [hsame, hcall] at hown
    cases hown
    rw [hstored, hop.unique hop', hcontract]
  · rw [hempty]
    cases hcontract : task.contract with
    | none => rfl
    | some contract =>
        obtain ⟨x, hx, hinsert⟩ := hstored₁ contract hcontract
        have hwrites := hnone x (hbefore hx)
        rw [hinsert, contractWritten, if_pos rfl] at hwrites
        cases hwrites

end Runs

/-- A call made when nothing else is under way: the ids it draws, the clock, and
what the peer answers once a session is open. -/
structure Scene where
  op : Operation
  drawn : String
  now : ℤ
  reply : LdpEnvelope

/-- A peer that manifests nothing, accepts every proposal and then gives one reply. -/
def Scene.surroundings (scene : Scene) : (q : ClientCall) → ClientState → q.Answer × ClientState
  | .newV4, s => (scene.drawn, s)
  | .utcNow, s => (scene.now, s)
  | .sendMessage _ e, s =>
      match e.body with
      | .hello _ _ => (.ok (LdpEnvelope.new "m1" "t1" "" "ldp:b" e.from_
          (.capabilityManifest (.object [])) .text), s)
      | .sessionPropose _ => (.ok (LdpEnvelope.new "m2" "t2" e.sessionId "ldp:b" e.from_
          (.sessionAccept e.sessionId .text) .text), s)
      | _ => (.ok scene.reply, s)
  | q, s => q.offline s

theorem Scene.surroundings_meaning (scene : Scene) (q : ClientCall) (s : ClientState) :
    ClientCall.Meaning q s (scene.surroundings q s).1 (scene.surroundings q s).2 := by
  cases q with
  | newV4 | utcNow => rfl
  | sendMessage url e => cases hb : e.body <;> simp [surroundings, hb, ClientCall.Meaning]
  | _ => exact ClientCall.offline_meaning _ s

section Scenes
variable {parseRfc3339 : String → Option ℤ} {hmac : Hmac} {config : LdpAdapterConfig}
  {k : AdapterConfig} {ids : List String}

/-- Every id that was drawn is one of these. -/
def DrewFrom (ids : List String) (k : AdapterConfig) : Prop :=
  FreshIds k ∧ ∀ i id, ⟨.newV4, id⟩ ∈ traceOf i k.log → id ∈ ids

theorem drewFrom_idle : DrewFrom [] (idle .empty) := by
  constructor
  · intro i j id hi
    cases hi
  · intro i id hi
    cases hi

def Scene.played (parseRfc3339 : String → Option ℤ) (hmac : Hmac) (config : LdpAdapterConfig)
    (scene : Scene) (s : ClientState) : Trace × ClientState × Except String Report :=
  Program.exec scene.surroundings (reported parseRfc3339 hmac config scene.op) s

theorem Scene.plays (scene : Scene) (h : Adapting parseRfc3339 hmac config k)
    (hdrew : DrewFrom ids k) (hnew : scene.drawn ∉ ids) : ∃ k',
    Adapting parseRfc3339 hmac config k' ∧
    Moves ClientCall.Meaning (reported parseRfc3339 hmac config) k k' ∧
    DrewFrom (scene.drawn :: ids) k' ∧
    k'.state = (scene.played parseRfc3339 hmac config k.state).2.1 ∧
    k'.calls =
      k.calls ++ [(scene.op, done (scene.played parseRfc3339 hmac config k.state).2.2)] ∧
    traceOf k.calls.length k'.log = (scene.played parseRfc3339 hmac config k.state).1 ∧
    ∀ i, i < k.calls.length → traceOf i k'.log = traceOf i k.log := by
  obtain ⟨steps, hto, hcallers, hevents⟩ := Moves.call k (c := scene.op)
    (exec_run scene.surroundings scene.surroundings_meaning
      (reported parseRfc3339 hmac config scene.op) k.state)
  have hnone : traceOf k.calls.length k.log = [] := by
    rw [traceOf, List.map_eq_nil_iff, List.filter_eq_nil_iff]
    intro x hx
    have hlt := h.follows.caller x hx
    simp only [beq_iff_eq]
    omega
  have hself : traceOf k.calls.length (k.log ++ steps) =
      (scene.played parseRfc3339 hmac config k.state).1 := by
    rw [traceOf_append, hnone, traceOf_of_callers hcallers, if_pos rfl, List.nil_append]
    exact hevents
  have hother : ∀ i, i ≠ k.calls.length → traceOf i (k.log ++ steps) = traceOf i k.log := by
    intro i hi
    rw [traceOf_append, traceOf_of_callers hcallers, if_neg hi, List.append_nil]
  have hdraws : ∀ id, ⟨.newV4, id⟩ ∈ traceOf k.calls.length (k.log ++ steps) →
      id = scene.drawn := by
    intro id hid
    rw [hself] at hid
    refine exec_events (P := fun ev : Event ClientCall ClientCall.Answer =>
      ∀ id, ev = ⟨.newV4, id⟩ → id = scene.drawn) ?_ _ _ _ hid id rfl
    intro q s id hq
    cases q with
    | newV4 =>
        cases hq
        rfl
    | _ => cases hq
  refine ⟨_, h.trans hto, hto, ⟨?_, ?_⟩, rfl, rfl, hself, fun i hi => hother i (by omega)⟩
  · intro i j id hi hj
    by_cases hin : i = k.calls.length
    · by_cases hjn : j = k.calls.length
      · omega
      · subst hin
        rw [hother j hjn] at hj
        rw [hdraws id hi] at hj
        exact (hnew (hdrew.2 j _ hj)).elim
    · rw [hother i hin] at hi
      by_cases hjn : j = k.calls.length
      · subst hjn
        rw [hdraws id hj] at hi
        exact (hnew (hdrew.2 i _ hi)).elim
      · rw [hother j hjn] at hj
        exact hdrew.1 i j id hi hj
  · intro i id hid
    by_cases hin : i = k.calls.length
    · subst hin
      rw [hdraws id hid]
      exact List.mem_cons_self
    · rw [hother i hin] at hid
      exact List.mem_cons_of_mem _ (hdrew.2 i id hid)

/-- Three scenes, one after the other. -/
theorem Scene.plays_three (parseRfc3339 : String → Option ℤ) (hmac : Hmac)
    (config : LdpAdapterConfig) (a b c : Scene) (hb : b.drawn ∉ [a.drawn])
    (hc : c.drawn ∉ [b.drawn, a.drawn]) {s₁ s₂ : ClientState}
    (hs₁ : (a.played parseRfc3339 hmac config .empty).2.1 = s₁)
    (hs₂ : (b.played parseRfc3339 hmac config s₁).2.1 = s₂) : ∃ k₁ k,
    Adapting parseRfc3339 hmac config k₁ ∧ Adapting parseRfc3339 hmac config k ∧
    Moves ClientCall.Meaning (reported parseRfc3339 hmac config) k₁ k ∧ FreshIds k ∧
    k₁.calls = [(a.op, done (a.played parseRfc3339 hmac config .empty).2.2)] ∧
    k.calls = [(a.op, done (a.played parseRfc3339 hmac config .empty).2.2),
      (b.op, done (b.played parseRfc3339 hmac config s₁).2.2),
      (c.op, done (c.played parseRfc3339 hmac config s₂).2.2)] ∧
    traceOf 1 k.log = (b.played parseRfc3339 hmac config s₁).1 ∧
    traceOf 2 k.log = (c.played parseRfc3339 hmac config s₂).1 := by
  have hidle : Adapting parseRfc3339 hmac config (idle .empty) := .refl
  obtain ⟨k₁, h₁, _, hdrew₁, hstate₁, hcalls₁, _, _⟩ := a.plays hidle drewFrom_idle (by simp)
  have hk₁ : k₁.state = s₁ := hstate₁.trans hs₁
  have hone : k₁.calls = [(a.op, done (a.played parseRfc3339 hmac config .empty).2.2)] := hcalls₁
  obtain ⟨k₂, h₂, hto₂, hdrew₂, hstate₂, hcalls₂, htrace₂, _⟩ := b.plays h₁ hdrew₁ hb
  rw [hk₁] at hstate₂ hcalls₂ htrace₂
  have hk₂ : k₂.state = s₂ := hstate₂.trans hs₂
  obtain ⟨k₃, h₃, hto₃, hdrew₃, _, hcalls₃, htrace₃, hkept₃⟩ := c.plays h₂ hdrew₂ hc
  rw [hk₂] at hcalls₃ htrace₃
  rw [hone] at hcalls₂ htrace₂
  rw [hcalls₂] at hcalls₃ htrace₃ hkept₃
  exact ⟨k₁, k₃, h₁, h₃, hto₂.trans hto₃, hdrew₃.1, hone, hcalls₃,
    (hkept₃ 1 (by simp)).trans htrace₂, htrace₃⟩

end Scenes
end LdpProtocol.AdapterRuns
