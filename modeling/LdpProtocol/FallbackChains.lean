import LdpProtocol.Handshake
import LdpProtocol.LinkedDelegate
import LdpProtocol.LinkedPythonClient
import LdpProtocol.CrossWire
import LdpProtocol.FirstOccurrences

/-!
# Fallback chains at both ends

Only the mode crosses the wire. The Rust server rebuilds a chain from the one
mode it is asked for; the Python client does not build one and keeps the default
of its session. For each pair of parties, when the two chains are equal is a
matter of the two lists alone.
-/
namespace LdpProtocol.FallbackChains
open InteractivePrograms InterferedRuns LinkedParties Relation FirstOccurrences
open JsonValues PayloadModes EnvelopeSigning

section Rust
open SessionManager ServerHandlers LinkedServer LinkedSessionManager

/-- Below the semantic frame there is text, once for every time it is preferred. -/
theorem fallbackChain_semanticFrame {initiatorPrefs responderPrefs : List PayloadMode}
    (h : (negotiatePayloadMode initiatorPrefs responderPrefs).mode = .semanticFrame) :
    (negotiatePayloadMode initiatorPrefs responderPrefs).fallbackChain =
      if .text ∈ responderPrefs then List.replicate (initiatorPrefs.count .text) .text else [] := by
  have hchain : (negotiatePayloadMode initiatorPrefs responderPrefs).fallbackChain =
      initiatorPrefs.filter fun mode => mode.isImplemented &&
        mode != (negotiatePayloadMode initiatorPrefs responderPrefs).mode &&
        responderPrefs.contains mode && decide (mode.modeNumber <
          (negotiatePayloadMode initiatorPrefs responderPrefs).mode.modeNumber) := rfl
  rw [hchain, h]
  split
  · next htext =>
      rw [← List.filter_eq]
      apply List.filter_congr
      intro m _
      cases m <;> simp [PayloadMode.isImplemented, PayloadMode.modeNumber, htext]
  · next htext =>
      rw [List.filter_eq_nil_iff]
      intro m _
      cases m <;> simp [PayloadMode.isImplemented, PayloadMode.modeNumber, htext]

theorem fallbackChain_text {initiatorPrefs responderPrefs : List PayloadMode}
    (h : (negotiatePayloadMode initiatorPrefs responderPrefs).mode = .text) :
    (negotiatePayloadMode initiatorPrefs responderPrefs).fallbackChain = [] := by
  apply List.eq_nil_iff_forall_not_mem.mpr
  intro m hm
  have hlt := (mem_fallbackChain.mp hm).2.2.2
  rw [h] at hlt
  exact absurd hlt (Nat.not_lt_zero _)

/-- The two Rust chains differ exactly where text, below the semantic frame, is
preferred never or more than once. -/
theorem rust_chains_iff (initiatorPrefs responderPrefs : List PayloadMode) :
    (negotiatePayloadMode initiatorPrefs responderPrefs).fallbackChain =
      (negotiatePayloadMode
        [(negotiatePayloadMode initiatorPrefs responderPrefs).mode, .text]
        responderPrefs).fallbackChain ↔
    (SemanticFrameFirst initiatorPrefs responderPrefs → .text ∈ responderPrefs →
      initiatorPrefs.count .text = 1) := by
  have hproposed : (negotiatePayloadMode
      [(negotiatePayloadMode initiatorPrefs responderPrefs).mode, .text] responderPrefs).mode =
      (negotiatePayloadMode initiatorPrefs responderPrefs).mode := agreedMode_proposed _ _
  rw [← mode_eq_semanticFrame_iff]
  rcases mode_cases initiatorPrefs responderPrefs with h | h
  · rw [fallbackChain_text h, fallbackChain_text (hproposed.trans h), h]
    simp
  · rw [fallbackChain_semanticFrame h, fallbackChain_semanticFrame (hproposed.trans h), h]
    by_cases htext : PayloadMode.text ∈ responderPrefs
    · simp only [htext, if_true, forall_const]
      have hone : List.count PayloadMode.text [PayloadMode.semanticFrame, .text] = 1 := rfl
      rw [hone, List.replicate_inj]
      simp
    · simp [htext]

end Rust

section Python
open PythonMessages PythonIdentity PythonDelegate PythonClient LinkedPythonClient

/-- The first shared mode lies above text, both lists have text, and nothing
else they share lies below the first. -/
def TextAloneBelow (initiatorPrefs responderPrefs : List PayloadMode) : Prop :=
  ∃ first, (initiatorPrefs.find? fun mode => responderPrefs.contains mode) = some first ∧
    first ≠ .text ∧ .text ∈ initiatorPrefs ∧ .text ∈ responderPrefs ∧
    ∀ m ∈ initiatorPrefs, m ∈ responderPrefs → m ≠ .text → first.modeNumber ≤ m.modeNumber

theorem modeNumber_pos {m : PayloadMode} : 0 < m.modeNumber ↔ m ≠ .text := by
  cases m <;> simp [PayloadMode.modeNumber]

/-- Whether the chain below a mode has this one. -/
def below (agreed : PayloadMode) (responderPrefs : List PayloadMode) (m : PayloadMode) : Bool :=
  decide (m ∈ responderPrefs ∧ m.modeNumber < agreed.modeNumber)

/-- The modes below the agreed one, each where the initiator first names it. -/
theorem python_chain_eq (initiatorPrefs responderPrefs : List PayloadMode) :
    (PythonIdentity.negotiatePayloadMode initiatorPrefs responderPrefs).fallbackChain =
      (initiatorPrefs.filter (below
        (PythonIdentity.negotiatePayloadMode initiatorPrefs responderPrefs).mode
        responderPrefs)).eraseDups := by
  refine foldl_append_new _ _ ?_ initiatorPrefs
  intro chain m
  unfold chainStep
  congr 1
  rw [below, decide_eq_true_eq, eq_iff_iff]
  constructor
  · intro h
    exact ⟨h.2.2, h.2.1⟩
  · intro h
    refine ⟨?_, h.2, h.1⟩
    intro heq
    rw [heq] at h
    exact lt_irrefl _ h.1.2

theorem mem_python_chain (initiatorPrefs responderPrefs : List PayloadMode) (m : PayloadMode) :
    m ∈ (PythonIdentity.negotiatePayloadMode initiatorPrefs responderPrefs).fallbackChain ↔
      m ∈ initiatorPrefs ∧
        m ≠ (PythonIdentity.negotiatePayloadMode initiatorPrefs responderPrefs).mode ∧
        m ∈ responderPrefs ∧ m.modeNumber <
          (PythonIdentity.negotiatePayloadMode initiatorPrefs responderPrefs).mode.modeNumber := by
  rw [python_chain_eq, List.mem_eraseDups, List.mem_filter, below, decide_eq_true_eq]
  constructor
  · intro h
    refine ⟨h.1, ?_, h.2⟩
    intro heq
    rw [← heq] at h
    exact lt_irrefl _ h.2.2
  · intro h
    exact ⟨h.1, h.2.2⟩

theorem python_mode_of_find {initiatorPrefs responderPrefs : List PayloadMode}
    {first : PayloadMode}
    (h : (initiatorPrefs.find? fun mode => responderPrefs.contains mode) = some first) :
    (PythonIdentity.negotiatePayloadMode initiatorPrefs responderPrefs).mode = first := by
  unfold PythonIdentity.negotiatePayloadMode
  rw [h]
  rfl

theorem eq_singleton_of_nodup {α : Type} {xs : List α} {a : α} (hnodup : xs.Nodup)
    (h : ∀ m, m ∈ xs ↔ m = a) : xs = [a] := by
  have hperm : xs.Perm [a] := by
    rw [List.perm_ext_iff_of_nodup hnodup (List.nodup_singleton a)]
    intro m
    rw [h m, List.mem_singleton]
  exact List.perm_singleton.mp hperm

theorem textAloneBelow_of_chain {initiatorPrefs responderPrefs : List PayloadMode}
    (h : (PythonIdentity.negotiatePayloadMode initiatorPrefs responderPrefs).fallbackChain =
      [.text]) : TextAloneBelow initiatorPrefs responderPrefs := by
  have htext := (mem_python_chain _ _ _).mp (h ▸ List.mem_singleton_self PayloadMode.text)
  obtain ⟨hI, hne, hR, hlt⟩ := htext
  cases hfind : initiatorPrefs.find? fun mode => responderPrefs.contains mode with
  | none =>
      have hmode : (PythonIdentity.negotiatePayloadMode initiatorPrefs responderPrefs).mode =
          .text := by
        unfold PythonIdentity.negotiatePayloadMode
        rw [hfind]
        rfl
      exact (hne hmode.symm).elim
  | some first =>
      rw [python_mode_of_find hfind] at hne hlt
      refine ⟨first, hfind, hne.symm, hI, hR, ?_⟩
      intro m hm hmR hmt
      by_contra hbelow
      have hnumber : m.modeNumber < first.modeNumber := by omega
      have hin : m ∈ (PythonIdentity.negotiatePayloadMode initiatorPrefs
          responderPrefs).fallbackChain := by
        rw [mem_python_chain, python_mode_of_find hfind]
        refine ⟨hm, ?_, hmR, hnumber⟩
        intro heq
        rw [heq] at hnumber
        omega
      rw [h] at hin
      exact hmt (List.mem_singleton.mp hin)

theorem chain_of_textAloneBelow {initiatorPrefs responderPrefs : List PayloadMode}
    (h : TextAloneBelow initiatorPrefs responderPrefs) :
    (PythonIdentity.negotiatePayloadMode initiatorPrefs responderPrefs).fallbackChain =
      [.text] := by
  obtain ⟨first, hfind, hne, hI, hR, hbelow⟩ := h
  apply eq_singleton_of_nodup (by rw [python_chain_eq]; exact nodup_eraseDups _)
  intro m
  have hmem := mem_python_chain initiatorPrefs responderPrefs m
  rw [python_mode_of_find hfind] at hmem
  refine hmem.trans ?_
  constructor
  · intro hin
    by_contra hmt
    have hle := hbelow m hin.1 hin.2.2.1 hmt
    have hlt := hin.2.2.2
    omega
  · intro heq
    subst heq
    exact ⟨hI, hne.symm, hR, modeNumber_pos.mpr hne⟩

theorem python_chain_iff (initiatorPrefs responderPrefs : List PayloadMode) :
    (PythonIdentity.negotiatePayloadMode initiatorPrefs responderPrefs).fallbackChain = [.text] ↔
      TextAloneBelow initiatorPrefs responderPrefs :=
  ⟨textAloneBelow_of_chain, chain_of_textAloneBelow⟩

/-- The modes a proposal offers, as the delegate reads them. -/
theorem initiatorModes_proposed {client : LdpClient} {envelope : LdpEnvelope}
    {advertised : List PayloadMode}
    (h : envelope.body.config = some (client.proposeConfig advertised)) :
    LdpDelegate.initiatorModes envelope = advertised := by
  have hitems : (advertised.map PayloadMode.toValue).filterMap asMode = advertised := by
    induction advertised with
    | nil => rfl
    | cons m ms ih => simp
  unfold LdpDelegate.initiatorModes LdpDelegate.configGet
  rw [h]
  exact hitems

section
variable {client : LdpClient} {hmac : Hmac} {url : String} {advertised : List PayloadMode}

/-- A handshake that gives both ends a session, among others with sessions of
their own: the client's chain is the default one, and the delegate's is negotiated
over the advertised modes. -/
theorem python_handshake {display : Value → String} {d : LdpDelegate}
    {registered : List PayloadMode} {faulty : Prop} {tasks : Sessions → Sessions → Prop}
    {others : List String → LinkedDelegate.Started → LinkedDelegate.Started → Prop} {card : Value}
    {w w' : Linked LinkedDelegate.Started} {session : LdpSession}
    (hothers : ∀ drawn s t, others drawn s t →
      LinkedDelegate.Appends (fun started => started.1 ≠ session.sessionId) s t)
    (h : LinkedPythonClient.Handshake client hmac url
      (LinkedDelegate.Serves display hmac d registered faulty) card faulty tasks others
      advertised w w' (.ok session)) :
    session.payload.fallbackChain = [.text] ∧
      LinkedDelegate.Appends (fun started => started.1 = session.sessionId →
        started.2 = PythonIdentity.negotiatePayloadMode advertised
          (d.identity.advertisedPayloadModes registered)) w.peer w'.peer := by
  have hforeign : ∀ drawn s t, others drawn s t →
      LinkedDelegate.Appends (fun started => started.1 = session.sessionId →
        started.2 = PythonIdentity.negotiatePayloadMode advertised
          (d.identity.advertisedPayloadModes registered)) s t := by
    intro drawn s t hst
    exact (hothers drawn s t hst).mono fun started hne heq => (hne heq).elim
  cases h with
  | @proposed v₁ v₂ p₁ p₂ messageId₁ timestamp₁ messageId₂ timestamp₂ sessionId answer₁ answer₂
      greeting outcome _ hv₁ hello hread₁ hv₂ hid hpropose hread₂ hpeer hconcluded =>
      have hhello : p₁ = v₁.peer := by
        refine hello.relates (G := fun s t => t = s) (fun _ => rfl) ?_
        intro s answer t hserved
        apply LinkedDelegate.serves_hello hserved
        intro made envelope hvalid
        rw [(CrossWire.validated_body (CrossWire.validated_envelope hvalid)).1,
          helloMessage_body]
        rfl
      have hproposed : LinkedDelegate.Appends (fun started => started.2 =
          PythonIdentity.negotiatePayloadMode advertised
            (d.identity.advertisedPayloadModes registered)) v₂.peer p₂ := by
        refine hpropose.relates (G := LinkedDelegate.Appends _) .refl ?_
        intro s answer t hserved
        apply LinkedDelegate.serves_propose hserved
        intro made envelope hvalid
        obtain ⟨htype, hconfig, _⟩ :=
          CrossWire.validated_body (CrossWire.validated_envelope hvalid)
        rw [proposeMessage_body] at htype hconfig
        rw [LinkedDelegate.negotiated, initiatorModes_proposed hconfig]
        exact ⟨htype, rfl⟩
      have hbefore := LinkedDelegate.appends_of_respecting hforeign hv₁.peer
      have hbetween := LinkedDelegate.appends_of_respecting hforeign hv₂.peer
      have hafter := LinkedDelegate.appends_of_respecting hforeign hpeer
      have hown := hproposed.mono fun started hpayload (_ : started.1 = session.sessionId) =>
        hpayload
      refine ⟨?_, ((hbefore.trans (hhello ▸ hbetween)).trans hown).trans hafter⟩
      cases hconcluded with
      | opened => rfl

end
end Python

/-- Chain agreement, for each pair of parties and every handshake that gives both
ends a session. -/
theorem chains_agree_iff (hmac : Hmac) (url : String) (faulty : Prop) :
    (∀ (srv : ServerHandlers.LdpServer) (config : SessionManager.LdpAdapterConfig)
      (tasks : SessionManager.ClientState → SessionManager.ClientState → Prop)
      (others : List String → ServerHandlers.ServerState → ServerHandlers.ServerState → Prop)
      (w w' : LinkedSessionManager.Linked ServerHandlers.ServerState)
      (tr : LinkedSessionManager.Trace) (session : MessageTypes.LdpSession),
      (∀ d s t, others d s t → LinkedServer.Foreign d s t) →
      LinkedSessionManager.LinkedRun (LinkedServer.Serves hmac srv others) faulty tasks others
        (SessionManager.getOrEstablish hmac config url) w tr w' (.ok session) →
      LinkedSessionManager.responses tr ≠ [] →
      ∃ held, w'.peer.sessions.lookup session.sessionId = some held ∧
        (session.payload.fallbackChain = held.payload.fallbackChain ↔
          (SemanticFrameFirst config.session.preferredPayloadModes
              srv.identity.supportedPayloadModes →
            .text ∈ srv.identity.supportedPayloadModes →
            config.session.preferredPayloadModes.count .text = 1))) ∧
    (∀ (display : Value → String) (d : PythonDelegate.LdpDelegate)
      (client : PythonClient.LdpClient) (card : Value)
      (clientCodecs delegateCodecs : List PayloadMode)
      (tasks : PythonClient.Sessions → PythonClient.Sessions → Prop)
      (others : List String → LinkedDelegate.Started → LinkedDelegate.Started → Prop)
      (w w' : LinkedPythonClient.Linked LinkedDelegate.Started) (tr : LinkedPythonClient.Trace)
      (session : PythonClient.LdpSession) (started : LinkedDelegate.Started)
      (negotiated : NegotiatedPayload),
      (∀ drawn s t, others drawn s t →
        LinkedDelegate.Appends (fun start => start.1 ≠ session.sessionId) s t) →
      LinkedPythonClient.LinkedRun (LinkedDelegate.Serves display hmac d delegateCodecs faulty) card
        clientCodecs faulty tasks others (client.establishSession hmac url) w tr w'
        (.ok session) →
      w'.peer = w.peer ++ started → (session.sessionId, negotiated) ∈ started →
      (session.payload.fallbackChain = negotiated.fallbackChain ↔
        TextAloneBelow (client.advertisedModes clientCodecs)
          (d.identity.advertisedPayloadModes delegateCodecs))) := by
  constructor
  · intro srv config tasks others w w' tr session hothers h hr
    obtain ⟨held, hheld, hest⟩ := Handshake.getOrEstablish_established hothers h hr
    refine ⟨held, hheld, ?_⟩
    rw [hest.client, hest.server]
    exact rust_chains_iff _ _
  · intro display d client card clientCodecs delegateCodecs tasks others w w' tr session started
      negotiated hothers h hstart hin
    obtain ⟨hclient, more, hmore, hpayload⟩ :=
      python_handshake hothers (LinkedPythonClient.establishSession_run h)
    have hsame : more = started := List.append_cancel_left (hmore.symm.trans hstart)
    have hdelegate : negotiated = _ := hpayload _ (hsame ▸ hin) rfl
    rw [hclient, hdelegate, eq_comm]
    exact python_chain_iff _ _

section Runs
open SessionManager ServerHandlers

/-- A client that runs a handshake with the echo server, both alone. -/
def rustOutcome (config : LdpAdapterConfig) :=
  Program.exec (LinkedSessionManager.networked
    (LinkedServer.serve submissionMac (LdpServer.echoServer "ldp:b" "B")))
    (getOrEstablish submissionMac config "u") Handshake.alone

theorem rust_run (config : LdpAdapterConfig) :
    LinkedSessionManager.LinkedRun
      (LinkedServer.Serves submissionMac (LdpServer.echoServer "ldp:b" "B") fun _ => Quiet) False
      Quiet (fun _ => Quiet) (getOrEstablish submissionMac config "u") Handshake.alone
      (rustOutcome config).1 (rustOutcome config).2.1 (rustOutcome config).2.2 :=
  exec_run _ (LinkedSessionManager.networked_meaning (LinkedServer.serve_serves _ _ _) False) _ _

def plainDelegate : PythonDelegate.LdpDelegate :=
  { DelegateGate.signingDelegate with signingSecret := none }

def noSessions : LinkedPythonClient.Linked LinkedDelegate.Started := ⟨∅, [], []⟩

/-- A client that runs a handshake with a delegate that has its defaults. -/
def pythonOutcome (client : PythonClient.LdpClient) :=
  Program.exec (LinkedPythonClient.networked
    (LinkedDelegate.serve (fun _ => "") submissionMac plainDelegate)
    (plainDelegate.advertisedIdentity []).modelDump LinkedDelegate.defaults)
    (client.establishSession submissionMac "u") noSessions

theorem python_run (client : PythonClient.LdpClient) :
    LinkedPythonClient.LinkedRun
      (LinkedDelegate.Serves (fun _ => "") submissionMac plainDelegate [] False)
      (plainDelegate.advertisedIdentity []).modelDump [] False Quiet (fun _ => Quiet)
      (client.establishSession submissionMac "u") noSessions
      (pythonOutcome client).1 (pythonOutcome client).2.1 (pythonOutcome client).2.2 :=
  exec_run _ (LinkedPythonClient.networked_meaning (LinkedDelegate.serve_serves _ _ _ _) _ _ _) _ _

/-- Default parties agree: what is below the semantic frame is text. -/
theorem chains_agree_iff_defaults :
    (∃ session held, (rustOutcome Handshake.echoConfig).2.2 = .ok session ∧
      (rustOutcome Handshake.echoConfig).2.1.peer.sessions.lookup session.sessionId = some held ∧
      session.payload.fallbackChain = held.payload.fallbackChain) ∧
    ∃ session negotiated, (pythonOutcome {}).2.2 = .ok session ∧
      (pythonOutcome {}).2.1.peer = [(session.sessionId, negotiated)] ∧
      session.payload.fallbackChain = negotiated.fallbackChain := by
  constructor
  · have hok : ∃ session, (rustOutcome Handshake.echoConfig).2.2 = .ok session := ⟨_, rfl⟩
    obtain ⟨session, hsession⟩ := hok
    have hrun := rust_run Handshake.echoConfig
    rw [hsession] at hrun
    have hanswers : (LinkedSessionManager.responses (rustOutcome Handshake.echoConfig).1).isEmpty =
        false := rfl
    obtain ⟨held, hheld, hiff⟩ := (chains_agree_iff submissionMac "u" False).1
      (LdpServer.echoServer "ldp:b" "B") Handshake.echoConfig Quiet (fun _ => Quiet)
      Handshake.alone _ _ session (fun _ _ _ h => h.elim) hrun
      (List.isEmpty_eq_false_iff.mp hanswers)
    exact ⟨session, held, hsession, hheld, hiff.mpr fun _ _ => rfl⟩
  · have hok : ∃ session negotiated, (pythonOutcome {}).2.2 = .ok session ∧
        (pythonOutcome {}).2.1.peer = [(session.sessionId, negotiated)] := ⟨_, _, rfl, rfl⟩
    obtain ⟨session, negotiated, hsession, hstarted⟩ := hok
    have hrun := python_run {}
    rw [hsession] at hrun
    have hiff := (chains_agree_iff submissionMac "u" False).2 (fun _ => "") plainDelegate {} _ [] []
      Quiet (fun _ => Quiet) noSessions _ _ session [(session.sessionId, negotiated)] negotiated
      (fun _ _ _ h => h.elim) hrun hstarted List.mem_cons_self
    refine ⟨session, negotiated, hsession, hstarted, hiff.mpr ?_⟩
    exact ⟨.semanticFrame, rfl, by decide, by decide, by decide, by decide⟩

/-- A list that names text twice, for the Rust parties. -/
def textTwice : LdpAdapterConfig where
  trustDomain := { name := "test-domain" }
  session := { preferredPayloadModes := [.semanticFrame, .text, .text] }

/-- A list that names text alone, for the Python parties. -/
def textAlone : PythonClient.LdpClient where
  config := { preferredPayloadModes := [.text] }

theorem chains_disagree :
    (∃ tr w' session held, LinkedSessionManager.LinkedRun
        (LinkedServer.Serves submissionMac (LdpServer.echoServer "ldp:b" "B") fun _ => Quiet) False
        Quiet (fun _ => Quiet) (getOrEstablish submissionMac textTwice "u") Handshake.alone tr w'
        (.ok session) ∧
      w'.peer.sessions.lookup session.sessionId = some held ∧
      session.payload.fallbackChain ≠ held.payload.fallbackChain) ∧
    ∃ tr w' session negotiated, LinkedPythonClient.LinkedRun
        (LinkedDelegate.Serves (fun _ => "") submissionMac plainDelegate [] False)
        (plainDelegate.advertisedIdentity []).modelDump [] False Quiet (fun _ => Quiet)
        (textAlone.establishSession submissionMac "u") noSessions tr w' (.ok session) ∧
      w'.peer = [(session.sessionId, negotiated)] ∧
      session.payload.fallbackChain ≠ negotiated.fallbackChain := by
  constructor
  · exact ⟨_, (rustOutcome textTwice).2.1, _, _, rust_run textTwice, rfl, by decide⟩
  · exact ⟨_, (pythonOutcome textAlone).2.1, _, _, python_run textAlone, rfl, by decide⟩

end Runs
end LdpProtocol.FallbackChains
