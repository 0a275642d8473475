import LdpProtocol.ClientQuestions
import LdpProtocol.ServerRuns
import LdpProtocol.ServerGate

/-!
# What a signing client sends

Seven places build an envelope. Six sign it; `close` does not. As long as no
call of `close` or `close_all` finds a session to close, every message carries a
signature that a server with the same secret accepts, in every interleaving of
any number of calls and whatever the network answers.
-/
namespace LdpProtocol.ClientSigning
open InteractivePrograms InterferedRuns
open InteractivePrograms.Program (uses_pure)
open JsonValues PayloadModes MessageTypes EnvelopeSigning SessionManager LdpAdapter
open ClientQuestions ServerHandlers ServerGate ServerRuns

abbrev ClientLog := List (ClientState × Event ClientCall ClientCall.Answer)

/-- The message reads back from the wire as it was written. -/
def Transferable (e : LdpEnvelope) : Prop := LdpEnvelope.fromValue e.toValue = some e

def SendsSigned (hmac : Hmac) (secret : String) : ClientCall → Prop
  | .sendMessage _ e => CarriesValidSignature hmac secret e ∧ Transferable e
  | _ => True

def ClosesNothing : (q : ClientCall) → q.Answer → Prop
  | .removeSession _, a => a = none
  | _, _ => True

abbrev Keeps (hmac : Hmac) (secret : String) {α : Type} (p : ClientProgram α) : Prop :=
  p.Uses ClosesNothing (SendsSigned hmac secret)

theorem transferable_of_errors {e : LdpEnvelope} (h : e.body.errors = []) : Transferable e := by
  apply LdpEnvelope.fromValue_toValue
  simp [h]

theorem ordinary_sendsSigned {hmac : Hmac} {secret : String} :
    Ordinary (SendsSigned hmac secret) := ⟨trivial, trivial, trivial⟩

/-- This is where the condition is needed: a session found is closed unsigned. -/
theorem close_keeps (hmac : Hmac) (config : LdpAdapterConfig) {secret : String} (url : String) :
    Keeps hmac secret (close config url) := by
  refine ⟨trivial, ?_⟩
  intro removed hremoved
  cases removed with
  | none => exact uses_pure _
  | some session => cases hremoved

section Sent
variable (parseRfc3339 : String → Option ℤ) (hmac : Hmac) (config : LdpAdapterConfig)
  {secret : String} (hs : config.signingSecret = some secret)
include hs

theorem sends_signed {url : String} {body : LdpMessageBody} (hbody : body.errors = []) :
    Sends hmac config (SendsSigned hmac secret) url body := by
  intro e he
  rw [hs]
  refine ⟨carriesValidSignature_applySignature .., transferable_of_errors ?_⟩
  rw [signIfConfigured_body, he]
  exact hbody

theorem getOrEstablish_keeps (url : String) :
    Keeps hmac secret (getOrEstablish hmac config url) := by
  have hopen : Keeps hmac secret (establishSession hmac config url) :=
    establishSession_uses ordinary_sendsSigned (sends_signed hmac config hs rfl)
      fun _ => sends_signed hmac config hs rfl
  exact getOrEstablish_uses ordinary_sendsSigned trivial hopen fun _ => trivial

theorem invoke_keeps (url : String) (task : TaskRequest) :
    Keeps hmac secret (LdpAdapter.invoke hmac config url task) :=
  invoke_uses ordinary_sendsSigned (getOrEstablish_keeps hmac config hs url)
    (fun _ => sends_signed hmac config hs rfl) (fun _ _ _ => trivial) trivial

theorem program_keeps (op : Operation) :
    Keeps hmac secret (op.program parseRfc3339 hmac config) := by
  cases op with
  | invoke url task => exact (invoke_keeps hmac config hs url task).bind fun _ => uses_pure _
  | stream url task ticks =>
      have hstream : Keeps hmac secret
          (LdpAdapter.stream parseRfc3339 hmac config url task ticks) :=
        stream_uses ordinary_sendsSigned (invoke_keeps hmac config hs url task)
          fun _ => sends_signed hmac config hs rfl
      exact hstream.bind fun _ => uses_pure _
  | status url taskId =>
      have hstatus : Keeps hmac secret (LdpAdapter.status parseRfc3339 hmac config url taskId) :=
        status_uses ordinary_sendsSigned (sends_signed hmac config hs rfl) trivial
      exact hstatus.bind fun _ => uses_pure _
  | cancel url taskId => exact cancel_uses ordinary_sendsSigned (sends_signed hmac config hs rfl)
  | getOrEstablish url => exact (getOrEstablish_keeps hmac config hs url).bind fun _ => uses_pure _
  | close url => exact close_keeps hmac config url
  | closeAll => exact closeAll_uses trivial (close_keeps hmac config)

end Sent

/-- The calls of a client's user, any number of them and at any time. -/
def UserCall (parseRfc3339 : String → Option ℤ) (hmac : Hmac) (config : LdpAdapterConfig)
    (p : ClientProgram Unit) : Prop := ∃ op : Operation, p = op.program parseRfc3339 hmac config

/-- No step of the run takes a cached session out. -/
def NeverCloses (log : ClientLog) : Prop :=
  ∀ ev ∈ log, ∀ url, ev.2.1 = .removeSession url → ev.1.sessions.lookup url = none

/-- What a message does at a server with the secret, however it is configured
otherwise. -/
structure Honoured (hmac : Hmac) (secret : String) (e : LdpEnvelope) : Prop where
  signed : CarriesValidSignature hmac secret e
  transferable : Transferable e
  accepted : ∀ srv : LdpServer, srv.signingSecret = some secret →
    srv.signatureError hmac e = none
  closes : ∀ (srv : LdpServer) (reason : Option String) (s u : ServerState) (tr : Trace)
    (r : Except String LdpEnvelope), srv.signingSecret = some secret →
    e.body = .sessionClose reason →
    Run ServerCall.Meaning Quiet (srv.handleMessage hmac e) s tr u r →
    u.sessions.lookup e.sessionId = none

theorem honoured_of_signed {hmac : Hmac} {secret : String} {e : LdpEnvelope}
    (hsig : CarriesValidSignature hmac secret e) (ht : Transferable e) :
    Honoured hmac secret e where
  signed := hsig
  transferable := ht
  accepted := fun _ hsrv => signatureError_of_valid hsrv hsig
  closes := by
    intro srv reason s u tr r hsrv hbody hrun
    have hgate := signatureError_of_valid hsrv hsig
    rcases handleMessage_handled hrun with ⟨error, hrefused, _⟩ | ⟨_, outcome, hd, _⟩
    · rw [hgate] at hrefused
      cases hrefused
    · generalize invocations tr = inv at hd
      cases hd with
      | close _ => exact AList.lookup_erase _ _
      | unhandled hu => simp [hbody, LdpMessageBody.tag] at hu
      | _ => simp_all

/-- In a run whose closes find no session, every message sent is signed, and a
server with the same secret accepts it. -/
theorem sent_honoured (parseRfc3339 : String → Option ℤ) (hmac : Hmac)
    (config : LdpAdapterConfig) (secret : String) (hs : config.signingSecret = some secret)
    (s₀ s : ClientState) (log : ClientLog) (ps : List (ClientProgram Unit))
    (h : Execution ClientCall.Meaning (UserCall parseRfc3339 hmac config) s₀ log s ps)
    (hclose : NeverCloses log) :
    ∀ ev ∈ log, ∀ url e, ev.2.1 = .sendMessage url e → Honoured hmac secret e := by
  have hallowed : ∀ ev ∈ log, ClosesNothing ev.2.1 ev.2.2 := by
    intro ev hev
    obtain ⟨s', q, a⟩ := ev
    obtain ⟨t, ht⟩ := h.meant _ hev
    cases q with
    | removeSession url =>
        have hnone := hclose _ hev url rfl
        exact ht.1.trans hnone
    | _ => trivial
  have hstarts : ∀ p, UserCall parseRfc3339 hmac config p → Keeps hmac secret p := by
    intro p hp
    obtain ⟨op, rfl⟩ := hp
    exact program_keeps parseRfc3339 hmac config hs op
  intro ev hev url e hq
  have hsent := (h.uses hstarts hallowed).2 ev hev
  rw [hq] at hsent
  exact honoured_of_signed hsent.1 hsent.2

/-- A network on which every peer manifests nothing, accepts every proposal and
answers nothing else. -/
def accepting : (q : ClientCall) → ClientState → q.Answer × ClientState
  | .sendMessage _ e, s =>
      match e.body with
      | .hello _ _ => (.ok (LdpEnvelope.new "m1" "t1" "" "ldp:b" e.from_
          (.capabilityManifest (.object [])) .text), s)
      | .sessionPropose _ => (.ok (LdpEnvelope.new "m2" "t2" e.sessionId "ldp:b" e.from_
          (.sessionAccept e.sessionId .text) .text), s)
      | _ => (.error "connection refused", s)
  | q, s => q.offline s

theorem accepting_meaning (q : ClientCall) (s : ClientState) :
    ClientCall.Meaning q s (accepting q s).1 (accepting q s).2 := by
  cases q with
  | sendMessage url e => cases hb : e.body <;> simp [accepting, hb, ClientCall.Meaning]
  | _ => exact ClientCall.offline_meaning _ s

def signingConfig : LdpAdapterConfig := { signingSecret := some "secret" }

/-- A user's call that is run to its end adds its own questions to the log. -/
theorem execution_call (op : Operation) {s₀ s u : ClientState} {log : ClientLog}
    {ps : List (ClientProgram Unit)} {r : Except String Unit}
    {tr : List (Event ClientCall ClientCall.Answer)}
    (h : Execution ClientCall.Meaning (UserCall (fun _ => none) submissionMac signingConfig)
      s₀ log s ps)
    (hr : Run ClientCall.Meaning Quiet (op.program (fun _ => none) submissionMac signingConfig)
      s tr u r) :
    ∃ steps ps', steps.map Prod.snd = tr ∧ Execution ClientCall.Meaning
      (UserCall (fun _ => none) submissionMac signingConfig) s₀ (log ++ steps) u ps' := by
  obtain ⟨steps, last, hsteps, hexec⟩ := (h.start ⟨op, rfl⟩).runs [] ps hr
  exact ⟨steps, _, hsteps, hexec⟩

theorem neverCloses_of_trace {steps : ClientLog} {tr : List (Event ClientCall ClientCall.Answer)}
    (hsteps : steps.map Prod.snd = tr) (h : ∀ ev ∈ tr, ∀ url, ev.1 ≠ .removeSession url) :
    NeverCloses steps := by
  intro ev hev url hq
  have hmem : ev.2 ∈ steps.map Prod.snd := List.mem_map_of_mem hev
  rw [hsteps] at hmem
  exact (h ev.2 hmem url hq).elim

theorem mem_of_trace {steps : ClientLog} {tr : List (Event ClientCall ClientCall.Answer)}
    (hsteps : steps.map Prod.snd = tr) {ev : Event ClientCall ClientCall.Answer} (h : ev ∈ tr) :
    ∃ s, (s, ev) ∈ steps := by
  rw [← hsteps] at h
  obtain ⟨⟨s, ev'⟩, hmem, rfl⟩ := List.mem_map.mp h
  exact ⟨s, hmem⟩

theorem sent_honoured_status :
    ∃ e, e.body = .taskUpdate "t1" none (some "status_query") ∧
      Honoured submissionMac "secret" e := by
  let query : LdpEnvelope := signIfConfigured submissionMac signingConfig.signingSecret
    (LdpEnvelope.new "9f1c1f0e-6f7e-4a0b-9a55-0d6a3b1c2d4e" "1970-01-01T00:00:00+00:00" ""
      "ldp:delegate:local" "u" (.taskUpdate "t1" none (some "status_query")) .text)
  have hrun : Run ClientCall.Meaning Quiet
      (Operation.program (fun _ => none) submissionMac signingConfig (.status "u" "t1"))
      ClientState.empty
      [⟨.newV4, "9f1c1f0e-6f7e-4a0b-9a55-0d6a3b1c2d4e"⟩,
        ⟨.utcNowRfc3339, "1970-01-01T00:00:00+00:00"⟩,
        ⟨.sendMessage "u" query, .error "connection refused"⟩]
      ClientState.empty (.error "connection refused") :=
    exec_run accepting accepting_meaning _ _
  obtain ⟨log, ps, hlog, hexec⟩ := execution_call (.status "u" "t1") .idle hrun
  obtain ⟨s, hmem⟩ := mem_of_trace hlog (List.mem_cons_of_mem _ (List.mem_cons_of_mem _
    List.mem_cons_self))
  refine ⟨query, rfl, ?_⟩
  apply sent_honoured (fun _ => none) submissionMac signingConfig "secret" rfl
    ClientState.empty ClientState.empty log ps hexec _ _ hmem "u" query rfl
  apply neverCloses_of_trace hlog
  simp

/-- A session is established and then closed. -/
theorem close_unsigned :
    ∃ log s ps url e, Execution ClientCall.Meaning
        (UserCall (fun _ => none) submissionMac signingConfig) ClientState.empty log s ps ∧
      (∃ ev ∈ log, ev.2.1 = .sendMessage url e) ∧
      e.body = .sessionClose none ∧ ¬ CarriesValidSignature submissionMac "secret" e ∧
      ∀ (srv : LdpServer) s tr u r, srv.signingSecret = some "secret" →
        Run ServerCall.Meaning Quiet (srv.handleMessage submissionMac e) s tr u r →
        u = s ∧ r = .error "Message signature required but not provided" := by
  let session : LdpSession := establishedSession signingConfig "u"
    "9f1c1f0e-6f7e-4a0b-9a55-0d6a3b1c2d4e" "ldp:b" ⟨.text, []⟩ 0
  let held : ClientState := ⟨AList.insert "u" session ∅, ∅⟩
  let closeMsg : LdpEnvelope := LdpEnvelope.new "9f1c1f0e-6f7e-4a0b-9a55-0d6a3b1c2d4e"
    "1970-01-01T00:00:00+00:00" session.sessionId "ldp:delegate:local" "ldp:b"
    (.sessionClose none) .text
  have hestablish : Run ClientCall.Meaning Quiet
      (Operation.program (fun _ => none) submissionMac signingConfig (.getOrEstablish "u"))
      ClientState.empty _ held (.ok ()) := exec_run accepting accepting_meaning _ _
  have hclose : Run ClientCall.Meaning Quiet
      (Operation.program (fun _ => none) submissionMac signingConfig (.close "u"))
      held
      [⟨.removeSession "u", some session⟩,
        ⟨.newV4, "9f1c1f0e-6f7e-4a0b-9a55-0d6a3b1c2d4e"⟩,
        ⟨.utcNowRfc3339, "1970-01-01T00:00:00+00:00"⟩,
        ⟨.sendMessage "u" closeMsg, .error "connection refused"⟩]
      ClientState.empty (.ok ()) := exec_run accepting accepting_meaning _ _
  obtain ⟨log₁, ps₁, _, hexec₁⟩ := execution_call (.getOrEstablish "u") .idle hestablish
  obtain ⟨log₂, ps₂, hlog₂, hexec₂⟩ := execution_call (.close "u") hexec₁ hclose
  obtain ⟨s, hmem⟩ := mem_of_trace hlog₂ (List.mem_cons_of_mem _ (List.mem_cons_of_mem _
    (List.mem_cons_of_mem _ List.mem_cons_self)))
  refine ⟨_, _, ps₂, "u", closeMsg, hexec₂, ⟨_, List.mem_append_right _ hmem, rfl⟩, rfl, ?_, ?_⟩
  · intro hsigned
    obtain ⟨sig, hsig, _⟩ := hsigned
    cases hsig
  · intro srv s tr u r hsrv hrun
    have hgate : srv.signatureError submissionMac closeMsg =
        some "Message signature required but not provided" := by
      unfold LdpServer.signatureError
      rw [hsrv]
      rfl
    rcases handleMessage_handled hrun with ⟨error, herror, _, hu, hr⟩ | ⟨hnone, _⟩
    · rw [hgate] at herror
      cases herror
      exact ⟨hu, hr⟩
    · rw [hgate] at hnone
      cases hnone

end LdpProtocol.ClientSigning
