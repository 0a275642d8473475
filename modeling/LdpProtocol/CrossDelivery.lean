import LdpProtocol.CrossNegotiation
import LdpProtocol.EnvelopeExchange
import LdpProtocol.PythonHandshake
import LdpProtocol.PythonSubmissions
import LdpProtocol.ReliableTasks

/-!
# Tasks of a Python client at a Rust server

The server takes a submission whose contract has numbers of the right size, and
answers with the output of its handler, in whatever session and whatever state it
is. So a client with its secret, which it trusts and which speaks the semantic
frame if the server does, gets that output under the verdict of its own contract.
-/
namespace LdpProtocol.CrossDelivery
open InteractivePrograms InterferedRuns ConcurrentCalls
open JsonValues PayloadModes PythonMessages PythonSigning PythonIdentity
open EnvelopeSigning (Hmac)
open ServerHandlers (LdpServer ServerState ServerCall)
open LinkedTasks (Handler Works)
open PythonClient PythonTasks PythonSubmissions EnvelopeExchange

section Contracts

/-- The Python integer fits an unsigned field of 32 bits. -/
def IsU32 (i : ℤ) : Prop := 0 ≤ i ∧ i < 2 ^ 32

theorem asU32_ofInt_isSome (i : ℤ) : (ofInt i).asU32.isSome = true ↔ IsU32 i := by
  unfold ofInt Value.asU32 IsU32
  split <;> simp_all

theorem orNull_asU32_isSome (o : Option ℤ) :
    ((Value.orNull ofInt o).nullable Value.asU32).isSome = true ↔ ∀ i, o = some i → IsU32 i := by
  cases o with
  | none => simp [Value.orNull]
  | some i =>
      have hi := asU32_ofInt_isSome i
      simpa [Value.orNull, isNull_ofInt] using hi

/-- The numbers of the contract are of the size that the Rust SDK has for them. -/
structure ContractFits (c : DelegationContract) : Prop where
  maxTokens : ∀ b i, c.policy.budget = some b → b.maxTokens = some i → CardExchange.IsU64 i
  maxDelegationDepth : ∀ i, c.policy.maxDelegationDepth = some i → IsU32 i

theorem budget_read_isSome (b : BudgetPolicy) :
    (MessageTypes.BudgetPolicy.fromValue b.modelDump).isSome = true ↔
      ∀ i, b.maxTokens = some i → CardExchange.IsU64 i := by
  let v := b.modelDump
  have hobject : v.asObject = some _ := rfl
  have htokens : v.optionField "max_tokens" Value.asU64 =
      (Value.orNull ofInt b.maxTokens).nullable Value.asU64 := rfl
  have hcost : v.optionField "max_cost_usd" Value.asF64 = some b.maxCostUsd :=
    Value.nullable_orNull_ofF64 _
  rw [← CardExchange.orNull_asU64_isSome]
  unfold MessageTypes.BudgetPolicy.fromValue
  rw [hobject, htokens, hcost]
  cases (Value.orNull ofInt b.maxTokens).nullable Value.asU64 <;> simp

theorem policy_read_isSome (p : PolicyEnvelope) :
    (MessageTypes.PolicyEnvelope.fromValue p.modelDump).isSome = true ↔
      (∀ b i, p.budget = some b → b.maxTokens = some i → CardExchange.IsU64 i) ∧
        ∀ i, p.maxDelegationDepth = some i → IsU32 i := by
  let v := p.modelDump
  have hobject : v.asObject = some _ := rfl
  have hfailure : v.defaultField "failure_policy" .failOpen
      (Value.asUnitVariant MessageTypes.FailurePolicy.ofWireName) = some p.failurePolicy :=
    MessageTypes.FailurePolicy.ofWireName_wireName _
  have hbudget : v.optionField "budget" MessageTypes.BudgetPolicy.fromValue =
      (Value.orNull BudgetPolicy.modelDump p.budget).nullable
        MessageTypes.BudgetPolicy.fromValue := rfl
  have hsafety : v.defaultField "safety_constraints" [] (Value.asArray Value.asStr) =
      some p.safetyConstraints := Value.asArray_ofStrings _
  have hdepth : v.optionField "max_delegation_depth" Value.asU32 =
      (Value.orNull ofInt p.maxDelegationDepth).nullable Value.asU32 := rfl
  have hbudgets : ((Value.orNull BudgetPolicy.modelDump p.budget).nullable
      MessageTypes.BudgetPolicy.fromValue).isSome = true ↔
        ∀ b i, p.budget = some b → b.maxTokens = some i → CardExchange.IsU64 i := by
    cases p.budget with
    | none => simp [Value.orNull]
    | some b =>
        have hb := budget_read_isSome b
        rw [Value.orNull, Value.nullable_of_not_isNull (by rintro ⟨⟩), Option.isSome_map, hb]
        constructor
        · rintro h _ i ⟨⟩
          exact h i
        · exact fun h i => h b i rfl
  rw [← hbudgets, ← orNull_asU32_isSome]
  unfold MessageTypes.PolicyEnvelope.fromValue
  rw [hobject, hfailure, hbudget, hsafety, hdepth]
  cases (Value.orNull BudgetPolicy.modelDump p.budget).nullable
      MessageTypes.BudgetPolicy.fromValue <;>
    cases (Value.orNull ofInt p.maxDelegationDepth).nullable Value.asU32 <;> simp

/-- The Rust SDK reads a Python contract exactly when its numbers fit. -/
theorem contract_read_isSome (c : DelegationContract) :
    (MessageTypes.DelegationContract.fromValue c.modelDump).isSome = true ↔ ContractFits c := by
  let v := c.modelDump
  have hcriteria : v.field "success_criteria" (Value.asArray Value.asStr) =
      some c.successCriteria := Value.asArray_ofStrings _
  have hpolicy : v.defaultField "policy" {} MessageTypes.PolicyEnvelope.fromValue =
      MessageTypes.PolicyEnvelope.fromValue c.policy.modelDump := rfl
  have hdeadline : v.optionField "deadline" Value.asStr = some c.deadline :=
    Value.nullable_orNull_string _
  have hread : (MessageTypes.DelegationContract.fromValue c.modelDump).isSome =
      (MessageTypes.PolicyEnvelope.fromValue c.policy.modelDump).isSome := by
    unfold MessageTypes.DelegationContract.fromValue
    rw [hcriteria, hpolicy, hdeadline]
    cases MessageTypes.PolicyEnvelope.fromValue c.policy.modelDump <;> rfl
  rw [hread, policy_read_isSome]
  exact ⟨fun h => ⟨h.1, h.2⟩, fun h => ⟨h.1, h.2⟩⟩

theorem submit_read {contract : Option DelegationContract}
    (hfits : ∀ c, contract = some c → ContractFits c) (taskId skill : String) (input : Value) :
    ∃ contract', MessageTypes.LdpMessageBody.fromValue
      (taskSubmit taskId skill input contract).modelDump =
        some (.taskSubmit taskId skill input contract') := by
  cases contract with
  | none => exact ⟨none, rfl⟩
  | some c =>
      obtain ⟨c', hc⟩ := Option.isSome_iff_exists.mp ((contract_read_isSome c).mpr (hfits c rfl))
      have hread : MessageTypes.LdpMessageBody.fromValue
          (taskSubmit taskId skill input (some c)).modelDump =
            (c.modelDump.nullable MessageTypes.DelegationContract.fromValue).bind
              fun read => some (.taskSubmit taskId skill input read) := rfl
      refine ⟨some c', ?_⟩
      rw [hread, Value.nullable_of_not_isNull (by rintro ⟨⟩), hc]
      rfl

end Contracts

/-- The server as a peer: other messages may do anything to its state meanwhile. -/
def serverPeer (hmac : Hmac) (srv : LdpServer) (handles : Handler) : Peer where
  answers document answer :=
    ∃ s t, Works hmac srv handles (fun _ _ _ => True) [] document s answer t
  identifies answer := answer = .ok srv.identity.toValue

section Server
variable {hmac : Hmac} {srv : LdpServer} {handles : Handler} {client : LdpClient}

/-- The parties have one secret, trust each other and speak one mode. -/
structure Matched (client : LdpClient) (srv : LdpServer) : Prop where
  secret : client.signingSecret = srv.signingSecret
  nonempty : client.signingSecret ≠ some ""
  domains : client.trustDomain.mutuallyTrusts srv.identity.trustDomain = true
  readable : CrossWire.Readable srv.identity
  spoken : .semanticFrame ∈ srv.identity.supportedPayloadModes →
    .semanticFrame ∈ client.config.preferredPayloadModes

theorem Matched.trusts (h : Matched client srv) :
    client.trustDomain.trusts srv.identity.trustDomain.name = true ∧
      srv.identity.trustDomain.trusts client.trustDomain.name = true := by
  simpa [DelegateIdentity.TrustDomain.mutuallyTrusts] using h.domains

/-- What the client signs passes the gate of the server. -/
theorem signed_accepted (h : Matched client srv) {e : LdpEnvelope} {b : MessageTypes.LdpMessageBody}
    (hread : MessageTypes.LdpEnvelope.fromValue
      (signIfConfigured hmac client.signingSecret e).modelDump =
        some (CrossWire.sent (signIfConfigured hmac client.signingSecret e) b)) :
    srv.signatureError hmac
      (CrossWire.sent (signIfConfigured hmac client.signingSecret e) b) = none := by
  have hsame := SigningAgreement.sameFields_of_fromValue hread
  cases hsecret : srv.signingSecret with
  | none =>
      unfold LdpServer.signatureError
      rw [hsecret]
  | some secret =>
      have hclient : client.signingSecret = some secret := h.secret.trans hsecret
      have hne : secret ≠ "" := by
        intro hempty
        rw [hempty] at hclient
        exact h.nonempty hclient
      rw [hclient] at hsame ⊢
      have hsigned : signIfConfigured hmac (some secret) e = applySignature hmac e secret :=
        if_neg hne
      rw [hsigned] at hsame ⊢
      apply ServerGate.signatureError_of_valid hsecret
      refine ⟨signEnvelope hmac e secret, rfl, ?_⟩
      rw [← verified_iff hmac hsame, SigningAgreement.pythonVerify_iff]
      rfl

/-- The client reads what the server responds to a message that it takes and that it
cannot fail on. -/
theorem replies_of_responds (h : Matched client srv) {e : LdpEnvelope}
    {b : MessageTypes.LdpMessageBody} (hp : e.provenance = none)
    (hb : MessageTypes.LdpMessageBody.fromValue e.body.modelDump = some b)
    (htotal : ∀ e : MessageTypes.LdpEnvelope, e.body = b → (srv.dispatch e).Total)
    {wanted : LdpEnvelope → Prop}
    (hwanted : ∀ (received response : MessageTypes.LdpEnvelope) s t tr, received.body = b →
      Run ServerCall.Meaning (fun _ _ => True) (srv.handleMessage hmac received) s tr t
        (.ok response) →
      (∀ skill input output, ⟨.handler skill input, output⟩ ∈ tr → handles skill input output) →
      Readable response.body ∧ wanted (pythonEnvelope (settled response))) :
    (serverPeer hmac srv handles).Replies hmac client e wanted := by
  intro answer hanswer
  obtain ⟨s, t, hworks⟩ := hanswer
  let signed := signIfConfigured hmac client.signingSecret e
  have hprovenance : signed.provenance = none := by
    rw [← hp]
    show (signIfConfigured hmac client.signingSecret e).provenance = _
    unfold signIfConfigured
    cases client.signingSecret with
    | none => rfl
    | some secret =>
        dsimp only
        split <;> rfl
  have hbody : MessageTypes.LdpMessageBody.fromValue signed.body.modelDump = some b := by
    rw [← hb]
    show _ = MessageTypes.LdpMessageBody.fromValue e.body.modelDump
    rw [← signIfConfigured_body hmac client.signingSecret e]
  have hread := CrossWire.fromValue_modelDump hprovenance hbody
  cases hworks with
  | @handled received tr _ r hvalid hrun hhandles =>
      rw [hread] at hvalid
      cases hvalid
      obtain ⟨response, rfl⟩ := ReliableTasks.answered_of_total (signed_accepted h hread)
        (htotal _ rfl) hrun
      obtain ⟨hreadable, hgood⟩ := hwanted _ response _ _ _ rfl hrun hhandles
      refine ⟨_, _, rfl, ?_, hgood⟩
      intro made
      rw [envelope_validated, if_pos hreadable]
  | invalid text hvalid =>
      rw [hread] at hvalid
      cases hvalid

/-- The server comes to text or to the semantic frame, and to the latter only if it
supports it. -/
theorem requested_spoken (h : Matched client srv) (registered : List PayloadMode) :
    (PythonHandshake.requested srv).mode = .text ∨
      (PythonHandshake.requested srv).mode ∈ client.advertisedModes registered := by
  have hcases := agreedMode_cases PayloadModes.PayloadMode.isImplemented [.semanticFrame, .text]
    srv.identity.supportedPayloadModes
  rw [← PayloadModes.negotiatePayloadMode_mode] at hcases
  rcases hcases with htext | ⟨_, hlisted, hsupported⟩
  · exact .inl htext
  · rcases List.mem_cons.mp hlisted with hframe | htext
    · rw [hframe] at hsupported
      refine .inr ?_
      unfold LdpClient.advertisedModes PythonHandshake.requested
      rw [hframe, List.mem_filter]
      exact ⟨h.spoken hsupported, rfl⟩
    · exact .inl (List.mem_singleton.mp htext)

theorem server_welcomes (h : Matched client srv) :
    (serverPeer hmac srv handles).Welcomes hmac client := by
  constructor
  · intro answer hanswer
    obtain ⟨identity, hdiscovered⟩ :=
      (PythonHandshake.discovered_iff h.trusts.1).mpr h.readable
    exact ⟨_, identity, hanswer, hdiscovered⟩
  · intro messageId timestamp to_ modes
    apply replies_of_responds h rfl (CrossWire.fromValue_hello client.delegateId modes)
    · intro e he
      unfold LdpServer.dispatch
      rw [he]
      exact ServerGate.respond_total srv e _ _
    · intro received response s t tr hreceived hrun _
      have hbody := ((LinkedServer.hello_among hreceived hrun).2 response rfl).1
      rw [hbody]
      exact ⟨trivial, trivial⟩
  · intro messageId timestamp sessionId to_ registered
    apply replies_of_responds h rfl (CrossWire.fromValue_sessionPropose _)
    · intro e he
      unfold LdpServer.dispatch
      rw [he]
      exact ServerGate.handleSessionPropose_total srv e _
    · intro received response s t tr hreceived hrun _
      rcases LinkedServer.propose_among hreceived hrun with ⟨haccept, _⟩ | ⟨hdistrust, _⟩
      · rw [PythonHandshake.negotiated_pythonConfig] at haccept
        have hback : (pythonEnvelope (settled response)).body =
            .sessionAccept received.sessionId (PythonHandshake.requested srv).mode := by
          show pythonBody (settledBody response.body) = _
          rw [haccept]
          rfl
        rw [hback, haccept]
        exact ⟨trivial, rfl, requested_spoken h registered⟩
      · rw [PythonHandshake.remoteDomain_pythonConfig, h.trusts.2] at hdistrust
        cases hdistrust

/-- The result of a submission in the Python record. -/
def resultBody (srv : LdpServer) (taskId : String) (output : Value) (produced : String) :
    LdpMessageBody :=
  .taskResult taskId output (pythonProvenance (srv.completedProvenance produced))

/-- The answer to a submission: the output of the handler, under the task's id. -/
def Outcome (handles : Handler) (srv : LdpServer) (task : TaskArguments) (submit : LdpEnvelope)
    (body : LdpMessageBody) : Prop :=
  ∃ taskId output produced, submit.body.taskId = some taskId ∧
    handles task.skill task.inputData output ∧ body = resultBody srv taskId output produced

theorem server_performs (h : Matched client srv) {task : TaskArguments}
    (hfits : ∀ c, task.contract = some c → ContractFits c) :
    (serverPeer hmac srv handles).Performs hmac client task (Outcome handles srv task) := by
  intro messageId timestamp sessionId to_ mode requested
  obtain ⟨contract, hread⟩ := submit_read hfits requested task.skill task.inputData
  apply replies_of_responds h rfl hread
  · intro e he
    unfold LdpServer.dispatch
    rw [he]
    exact ServerGate.handleTaskSubmit_total srv e _ _ _
  · intro received response s t tr hreceived hrun hhandles
    obtain ⟨output, produced, hbody, hmem, _⟩ := LinkedTasks.submit_among hreceived hrun
    have hback : (pythonEnvelope (settled response)).body =
        resultBody srv requested output produced := by
      show pythonBody (settledBody response.body) = _
      rw [hbody]
      rfl
    rw [hback, hbody]
    refine ⟨trivial, requested, output, produced, ?_, hhandles _ _ _ hmem, rfl⟩
    rw [signIfConfigured_body]
    rfl

end Server

section Runs
variable {hmac : Hmac} {srv : LdpServer} {handles : Handler} {client : LdpClient} {url : String}
  {fromIsoFormat : String → Option Deadline}

/-- Whatever the client's other calls do in between and whoever else the server deals
with, a finished submission has sent one message, and ends with the verdict on the
output of the handler. -/
theorem task_performed {registered : List PayloadMode} {k : PythonSessionCache.CallConfig}
    (h : PythonSessionCache.Reached fromIsoFormat hmac client registered k)
    (hmatched : Matched client srv) {i : ℕ} {task : TaskArguments}
    (hfits : ∀ c, task.contract = some c → ContractFits c)
    {r : Except Failure Returned} (hcall : k.calls[i]? = some (.submitTask url task, done r))
    (hlinked : ∀ x ∈ k.log, x.caller = i →
      TaskLinked (serverPeer hmac srv handles) url x.event) :
    ∃ (submit : LdpEnvelope) (taskId : String) (output : Value) (produced : String) (now : ℤ),
      submissionsOf i k.log = [(url, submit.modelDump)] ∧
      submit.body = taskSubmit taskId task.skill task.inputData task.contract ∧
      handles task.skill task.inputData output ∧
      r = (reported fromIsoFormat task.contract (resultBody srv taskId output produced) now).map
        .report := by
  obtain ⟨report, hr, submit, requested, body, now, hsent, hsubmit,
    ⟨taskId, output, produced, hid, houtput, rfl⟩, hreport⟩ := submitted_of_reached h
      (server_welcomes hmatched) (server_performs hmatched hfits) hcall hlinked
  rw [hsubmit] at hid
  cases hid
  refine ⟨submit, requested, output, produced, now, hsent, hsubmit, houtput, ?_⟩
  rw [hr, hreport]
  rfl

/-- HMAC-SHA256 at the signing inputs of a handshake and a task with the test server. -/
def secretMac : Hmac :=
  let id := "9f1c1f0e-6f7e-4a0b-9a55-0d6a3b1c2d4e"
  let sent := "1970-01-01T00:00:00+00:00|" ++ id ++ "|"
  EnvelopeSigning.tabulated [
    ("secret", "ldp:client:default|u||" ++ sent ++ "ldp:client:default|HELLO",
      [194, 45, 185, 40, 21, 89, 194, 66, 130, 89, 153, 145, 104, 47, 14, 198, 134, 242, 115,
      82, 5, 233, 174, 137, 117, 238, 51, 79, 122, 139, 31, 103]),
    ("secret", "ldp:b|ldp:client:default||" ++ sent ++ "|CAPABILITY_MANIFEST",
      [11, 69, 7, 116, 102, 208, 113, 145, 13, 26, 58, 99, 204, 8, 123, 129, 251, 40, 94, 236,
      122, 65, 176, 153, 39, 252, 191, 130, 154, 180, 203, 1]),
    ("secret", "ldp:client:default|u|" ++ id ++ "|" ++ sent ++ "|SESSION_PROPOSE",
      [181, 93, 49, 248, 112, 103, 190, 4, 90, 179, 116, 59, 149, 169, 23, 109, 35, 104, 124,
      150, 126, 233, 230, 44, 63, 142, 164, 154, 84, 2, 117, 134]),
    ("secret", "ldp:b|ldp:client:default|" ++ id ++ "|" ++ sent ++ id ++ "|SESSION_ACCEPT",
      [213, 95, 147, 232, 230, 142, 248, 202, 138, 179, 104, 220, 218, 100, 231, 113, 219, 57,
      34, 41, 227, 8, 187, 51, 206, 30, 23, 68, 211, 12, 254, 158]),
    ("secret", "ldp:client:default|ldp:b|" ++ id ++ "|" ++ sent ++ id ++ "|echo|TASK_SUBMIT",
      [137, 22, 3, 131, 46, 36, 96, 8, 27, 138, 186, 38, 90, 22, 193, 85, 226, 98, 213, 51,
      255, 247, 232, 25, 87, 226, 205, 195, 124, 85, 242, 221]),
    ("secret", "ldp:b|ldp:client:default|" ++ id ++ "|" ++ sent ++ id ++ "|TASK_RESULT",
      [30, 3, 19, 89, 39, 201, 61, 128, 101, 23, 65, 147, 14, 189, 75, 39, 229, 5, 50, 182, 89,
      206, 176, 9, 254, 115, 105, 142, 133, 67, 135, 158])]

def secretServer : LdpServer :=
  { LdpServer.echoServer "ldp:b" "B" with signingSecret := some "secret" }

def secretClient : LdpClient :=
  { CrossNegotiation.testClient [.semanticFrame] with signingSecret := some "secret" }

/-- A fail-closed contract for ten tokens. -/
def tokenContract : DelegationContract where
  contractId := "c1"
  objective := "answer briefly"
  policy := { failurePolicy := .failClosed, budget := some { maxTokens := some 10 } }
  createdAt := "t0"

/-- A client of the test server's domain and secret submits a task under that contract,
and gets an echo, for which no tokens are reported. -/
theorem task_performed_signed : ∃ k report, PythonSessionCache.Reached (fun _ => none)
    secretMac secretClient [] k ∧
      k.calls[0]? = some (.submitTask "u" ⟨"echo", .null, none, some tokenContract⟩,
        done (.ok (.report report))) ∧
      ∃ (submit : LdpEnvelope) (taskId : String) (provenance : Value),
        submissionsOf 0 k.log = [("u", submit.modelDump)] ∧
        submit.body = taskSubmit taskId "echo" .null (some tokenContract) ∧
        report = .result (some taskId) (.object [("echo", .null)]) (some provenance)
          (some ⟨"c1", true, []⟩) := by
  have hmatched : Matched secretClient secretServer :=
    ⟨rfl, by decide, by decide, CrossNegotiation.echoServer_readable, by decide⟩
  obtain ⟨k, r, hreached, hcall, hlinked⟩ := exists_reached (fun _ => none) secretMac secretClient
    (serverPeer secretMac secretServer
      fun _ input output => output = .object [("echo", input)])
    LinkedDelegate.defaults
    (fun document => ⟨.empty, _, LinkedTasks.works_echo _ _ _ _ document _⟩) rfl "u"
    ⟨"echo", .null, none, some tokenContract⟩
  have hfits : ∀ c, some tokenContract = some c → ContractFits c := by
    rintro c ⟨⟩
    refine ⟨?_, fun i h => by cases h⟩
    rintro b i ⟨⟩ ⟨⟩
    exact ⟨by decide, by decide⟩
  obtain ⟨submit, taskId, output, produced, now, hsent, hsubmit, houtput, hr⟩ :=
    task_performed hreached hmatched hfits hcall hlinked
  subst houtput
  subst hr
  exact ⟨k, _, hreached, hcall, submit, taskId, _, hsent, hsubmit, rfl⟩

end Runs
end LdpProtocol.CrossDelivery
