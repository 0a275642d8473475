import LdpProtocol.LinkedParties
import LdpProtocol.DelegateGate

/-!
# The Python delegate as a peer

The delegate validates a document, handles the message and dumps its response;
an exception becomes an internal server error. It keeps no sessions, so what is
recorded of it is the calls of `on_session_start`. The codec registry does not
change, as the SDK asks of its users.
-/
namespace LdpProtocol.LinkedDelegate
open InteractivePrograms InterferedRuns LinkedParties
open InteractivePrograms.Program (call_bind pure_eq ask_bind pure_bind_eq)
open JsonValues PayloadModes EnvelopeSigning PythonMessages PythonSigning PythonIdentity
open PythonDelegate DelegateGate

/-- The sessions the subclass was told of, with what was negotiated. -/
abbrev Started := List (String × NegotiatedPayload)

def start (ev : Event DelegateCall DelegateCall.Answer) : Option (String × NegotiatedPayload) :=
  match ev.1 with
  | .onSessionStart sessionId negotiated => some (sessionId, negotiated)
  | _ => none

def starts (tr : Trace) : Started := tr.filterMap start

/-- Sessions of one kind were started in between. -/
def Appends (P : String × NegotiatedPayload → Prop) (s t : Started) : Prop :=
  ∃ more, t = s ++ more ∧ ∀ started ∈ more, P started

section Appends
variable {P Q : String × NegotiatedPayload → Prop} {s t u : Started}

theorem Appends.refl (s : Started) : Appends P s s :=
  ⟨[], (List.append_nil s).symm, fun _ h => by cases h⟩

theorem Appends.trans (h : Appends P s t) (h' : Appends P t u) : Appends P s u := by
  obtain ⟨more, rfl, hmore⟩ := h
  obtain ⟨rest, rfl, hrest⟩ := h'
  refine ⟨more ++ rest, List.append_assoc .., ?_⟩
  intro started hin
  rcases List.mem_append.mp hin with hin | hin
  · exact hmore started hin
  · exact hrest started hin

theorem Appends.mono (hPQ : ∀ started, P started → Q started) (h : Appends P s t) :
    Appends Q s t := by
  obtain ⟨more, ht, hmore⟩ := h
  exact ⟨more, ht, fun started hin => hPQ started (hmore started hin)⟩

theorem appends_of_respecting {others : List String → Started → Started → Prop}
    (hothers : ∀ drawn s t, others drawn s t → Appends P s t) {drawn : List String}
    (h : Relation.ReflTransGen (Respecting others drawn) s t) : Appends P s t := by
  induction h with
  | refl => exact .refl s
  | tail _ hstep ih =>
      obtain ⟨_, _, hother⟩ := hstep
      exact ih.trans (hothers _ _ _ hother)

end Appends

/-- The registry answers with its modes, and the hook does not raise unless
faults can occur. -/
def Surroundings (registered : List PayloadMode) (faulty : Prop) :
    Event DelegateCall DelegateCall.Answer → Prop
  | ⟨.registeredModes, a⟩ => a = registered
  | ⟨.onSessionStart _ _, a⟩ => a = .ok () ∨ faulty
  | _ => True

/-- The body of a failed request. -/
def internalError : String := "Internal Server Error"

def answerOf : Except Raised LdpEnvelope → Except String Value
  | .ok response => .ok response.modelDump
  | .error _ => .error internalError

inductive Serves (display : Value → String) (hmac : Hmac) (d : LdpDelegate)
    (registered : List PayloadMode) (faulty : Prop) (drawn : List String) (document : Value)
    (s : Started) : Except String Value → Started → Prop
  | handled {made : Factories} {envelope : LdpEnvelope} {tr : Trace}
      {r : Except Raised LdpEnvelope} : LdpEnvelope.modelValidate made document = some envelope →
      DelegateRun (d.handleMessage display hmac envelope) tr r →
      (∀ ev ∈ tr, Surroundings registered faulty ev) →
      Serves display hmac d registered faulty drawn document s (answerOf r) (s ++ starts tr)
  | invalid {made : Factories} : LdpEnvelope.modelValidate made document = none →
      Serves display hmac d registered faulty drawn document s (.error internalError) s

def defaults : Factories where
  messageId := "7d0f2a1c-3b4e-4c5d-8e6f-0a1b2c3d4e5f"
  timestamp := "1970-01-01T00:00:00+00:00"
  contractId := "5a6b7c8d-9e0f-4a1b-8c2d-3e4f5a6b7c8d"
  createdAt := "1970-01-01T00:00:00+00:00"
  producedAt := "1970-01-01T00:00:00+00:00"

/-- The delegate handling one document in surroundings in which nothing raises
and no codec is registered. -/
def serve (display : Value → String) (hmac : Hmac) (d : LdpDelegate) (document : Value)
    (s : Started) : Except String Value × Started :=
  match LdpEnvelope.modelValidate defaults document with
  | some envelope =>
      let out := Program.exec obliging (d.handleMessage display hmac envelope) ()
      (answerOf out.2.2, s ++ starts out.1)
  | none => (.error internalError, s)

theorem obliging_surroundings {α : Type} (faulty : Prop) (p : DelegateProgram α) :
    ∀ ev ∈ (Program.exec obliging p ()).1, Surroundings [] faulty ev := by
  apply exec_events
  intro q _
  cases q with
  | registeredModes => rfl
  | onSessionStart => exact .inl rfl
  | _ => trivial

theorem serve_serves (display : Value → String) (hmac : Hmac) (d : LdpDelegate) (faulty : Prop)
    (drawn : List String) (document : Value) (s : Started) :
    Serves display hmac d [] faulty drawn document s (serve display hmac d document s).1
      (serve display hmac d document s).2 := by
  unfold serve
  cases hread : LdpEnvelope.modelValidate defaults document with
  | none => exact .invalid hread
  | some envelope =>
      exact .handled hread (exec_run obliging (fun _ _ => trivial) _ _)
        (obliging_surroundings faulty _)

section
variable {display : Value → String} {hmac : Hmac} {d : LdpDelegate} {envelope : LdpEnvelope}
  {registered : List PayloadMode} {faulty : Prop} {tr : Trace} {r : Except Raised LdpEnvelope}

/-- What the delegate negotiates for a proposal. -/
def negotiated (d : LdpDelegate) (registered : List PayloadMode) (envelope : LdpEnvelope) :
    NegotiatedPayload :=
  PythonIdentity.negotiatePayloadMode (LdpDelegate.initiatorModes envelope)
    (d.identity.advertisedPayloadModes registered)

theorem create_starts {sessionId : String} {body : LdpMessageBody} {mode : PayloadMode}
    (h : DelegateRun (d.create envelope sessionId body mode) tr r) : starts tr = [] := by
  unfold LdpDelegate.create PythonDelegate.uuid4 PythonDelegate.isoNow at h
  simp only [call_bind, pure_eq, quiet_ask, quiet_pure] at h
  obtain ⟨_, _, _, _, ⟨_, _, _, _, ⟨_, rfl, _⟩, rfl⟩, rfl⟩ := h
  rfl

/-- A message that passes the signature check is dispatched, and its response is
signed; any other starts nothing. -/
theorem handleMessage_run
    (h : DelegateRun (d.handleMessage display hmac envelope) tr r) :
    (d.signaturePasses hmac envelope = .ok true ∧
      ∃ raw, DelegateRun (d.dispatch display envelope) tr raw ∧
        r = raw.map (PythonSigning.signIfConfigured hmac d.signingSecret)) ∨
    (d.signaturePasses hmac envelope ≠ .ok true ∧ starts tr = []) := by
  by_cases hpass : d.signaturePasses hmac envelope = .ok true
  · refine .inl ⟨hpass, ?_⟩
    rw [handleMessage_passed hpass] at h
    rcases h.of_bind with ⟨raw, _, tr₁, tr₂, hrun, hrest, rfl⟩ | ⟨e, hrun, rfl⟩
    · simp only [pure_eq, quiet_pure] at hrest
      obtain ⟨_, rfl, rfl⟩ := hrest
      rw [List.append_nil]
      exact ⟨_, hrun, rfl⟩
    · exact ⟨_, hrun, rfl⟩
  · refine .inr ⟨hpass, ?_⟩
    have hnone := not_callsBack_of_run (unverified_neverCallsBack hpass) h
    unfold starts
    rw [List.filterMap_eq_nil_iff]
    intro ev hev
    obtain ⟨q, a⟩ := ev
    cases q with
    | onSessionStart => exact (hnone ⟨_, hev, trivial⟩).elim
    | _ => rfl

theorem hello_starts (htype : envelope.body.type = "HELLO")
    (h : DelegateRun (d.handleMessage display hmac envelope) tr r) : starts tr = [] := by
  rcases handleMessage_run h with ⟨_, raw, hrun, _⟩ | ⟨_, hnone⟩
  · unfold LdpDelegate.dispatch at hrun
    rw [if_pos htype] at hrun
    exact create_starts hrun
  · exact hnone

theorem handleSessionPropose_trusted (ht : d.trustsValue (LdpDelegate.remoteDomain envelope) = true)
    (h : DelegateRun (d.handleSessionPropose display envelope) tr r)
    (hs : ∀ ev ∈ tr, Surroundings registered faulty ev) :
    ∃ sessionId messageId timestamp,
      starts tr = [(sessionId, negotiated d registered envelope)] ∧
      ((∃ text, r = .error (.hook text) ∧ faulty) ∨ r = .ok (LdpEnvelope.create messageId timestamp
        sessionId d.identity.delegateId envelope.from_
        (.sessionAccept sessionId (negotiated d registered envelope).mode) .text)) := by
  unfold LdpDelegate.handleSessionPropose LdpDelegate.create onSessionStart PythonDelegate.uuid4
    PythonDelegate.registeredModes PythonDelegate.isoNow at h
  rw [if_pos ht] at h
  simp only [call_bind, pure_eq, ask_bind, pure_bind_eq, quiet_ask] at h
  obtain ⟨sessionId, _, _, _, ⟨modes, _, _, _, ⟨messageId, _, _, _, ⟨timestamp, _, _, _,
    ⟨answer, _, tr₅, _, hrest, rfl⟩, rfl⟩, rfl⟩, rfl⟩, rfl⟩ := h
  have hmodes : modes = registered := hs ⟨.registeredModes, modes⟩ (by simp)
  rw [hmodes] at hs hrest ⊢
  have hhook := hs ⟨.onSessionStart sessionId (negotiated d registered envelope), answer⟩
    (by simp [negotiated])
  refine ⟨sessionId, messageId, timestamp, ?_⟩
  cases answer with
  | ok _ =>
      simp only [raiseHook, pure_bind_eq, quiet_pure] at hrest
      obtain ⟨_, rfl, rfl⟩ := hrest
      exact ⟨rfl, .inr rfl⟩
  | error text =>
      simp only [raiseHook, Program.throw_bind, quiet_throw] at hrest
      obtain ⟨_, rfl, rfl⟩ := hrest
      have hfaulty : faulty := hhook.resolve_left fun heq => by cases heq
      exact ⟨rfl, .inl ⟨text, rfl, hfaulty⟩⟩

theorem dispatch_propose (htype : envelope.body.type = "SESSION_PROPOSE") :
    d.dispatch display envelope = d.handleSessionPropose display envelope := by
  unfold LdpDelegate.dispatch
  rw [htype]
  rfl

/-- A session that is started for a proposal carries what was negotiated for it. -/
theorem propose_starts (htype : envelope.body.type = "SESSION_PROPOSE")
    (h : DelegateRun (d.handleMessage display hmac envelope) tr r)
    (hs : ∀ ev ∈ tr, Surroundings registered faulty ev) :
    ∀ started ∈ starts tr, started.2 = negotiated d registered envelope := by
  intro started hin
  rcases handleMessage_run h with ⟨_, raw, hrun, _⟩ | ⟨_, hnone⟩
  · rw [dispatch_propose htype] at hrun
    by_cases ht : d.trustsValue (LdpDelegate.remoteDomain envelope) = true
    · obtain ⟨sessionId, _, _, hone, _⟩ := handleSessionPropose_trusted ht hrun hs
      rw [hone] at hin
      rw [List.mem_singleton.mp hin]
    · unfold LdpDelegate.handleSessionPropose at hrun
      rw [if_neg ht] at hrun
      rw [create_starts hrun] at hin
      cases hin
  · rw [hnone] at hin
    cases hin

/-- Without a secret every message is dispatched and no response is signed. -/
theorem handleMessage_unsigned_eq (hd : d.signingSecret = none) :
    d.handleMessage display hmac envelope = d.dispatch display envelope := by
  have hpass : d.signaturePasses hmac envelope = .ok true := by
    unfold LdpDelegate.signaturePasses
    rw [hd]
  rw [handleMessage_passed hpass, hd]
  exact Program.bind_pure _

theorem handleMessage_unsigned (hd : d.signingSecret = none)
    (h : DelegateRun (d.handleMessage display hmac envelope) tr r) :
    DelegateRun (d.dispatch display envelope) tr r := by
  rw [handleMessage_unsigned_eq hd] at h
  exact h

theorem hello_answered (hd : d.signingSecret = none) (htype : envelope.body.type = "HELLO")
    (h : DelegateRun (d.handleMessage display hmac envelope) tr r) :
    starts tr = [] ∧ ∃ response, r = .ok response ∧ response.provenance = none ∧
      response.body = .capabilityManifest d.capabilityList := by
  refine ⟨hello_starts htype h, ?_⟩
  have hrun := handleMessage_unsigned hd h
  unfold LdpDelegate.dispatch at hrun
  rw [if_pos htype] at hrun
  obtain ⟨_, messageId, timestamp, hr⟩ := create_run d envelope hrun
  exact ⟨_, hr, rfl, rfl⟩

theorem propose_answered (hd : d.signingSecret = none)
    (htype : envelope.body.type = "SESSION_PROPOSE")
    (ht : d.trustsValue (LdpDelegate.remoteDomain envelope) = true)
    (h : DelegateRun (d.handleMessage display hmac envelope) tr r)
    (hs : ∀ ev ∈ tr, Surroundings registered False ev) :
    ∃ sessionId, starts tr = [(sessionId, negotiated d registered envelope)] ∧
      ∃ response, r = .ok response ∧ response.provenance = none ∧
        response.body = .sessionAccept sessionId (negotiated d registered envelope).mode := by
  have hrun := handleMessage_unsigned hd h
  rw [dispatch_propose htype] at hrun
  obtain ⟨sessionId, messageId, timestamp, hstart, hr⟩ := handleSessionPropose_trusted ht hrun hs
  refine ⟨sessionId, hstart, ?_⟩
  rcases hr with ⟨_, _, hfalse⟩ | hok
  · exact hfalse.elim
  · exact ⟨_, hok, rfl, rfl⟩

end

section Peer
variable {display : Value → String} {hmac : Hmac} {d : LdpDelegate} {registered : List PayloadMode}
  {faulty : Prop} {drawn : List String} {document : Value} {s t : Started}

theorem serves_hello {answer : Except String Value}
    (h : Serves display hmac d registered faulty drawn document s answer t)
    (hread : ∀ made envelope, LdpEnvelope.modelValidate made document = some envelope →
      envelope.body.type = "HELLO") : t = s := by
  cases h with
  | handled hvalid hrun _ => rw [hello_starts (hread _ _ hvalid) hrun, List.append_nil]
  | invalid => rfl

theorem serves_propose {answer : Except String Value} {payload : NegotiatedPayload}
    (h : Serves display hmac d registered faulty drawn document s answer t)
    (hread : ∀ made envelope, LdpEnvelope.modelValidate made document = some envelope →
      envelope.body.type = "SESSION_PROPOSE" ∧ negotiated d registered envelope = payload) :
    Appends (fun started => started.2 = payload) s t := by
  cases h with
  | @handled made envelope tr r hvalid hrun hs =>
      obtain ⟨htype, hpayload⟩ := hread _ _ hvalid
      refine ⟨starts tr, rfl, ?_⟩
      rw [← hpayload]
      exact propose_starts htype hrun hs
  | invalid => exact .refl s

end Peer
end LdpProtocol.LinkedDelegate
