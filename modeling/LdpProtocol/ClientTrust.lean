import LdpProtocol.ClientSigning
import LdpProtocol.SessionCache
import LdpProtocol.TranslatedPrograms

/-!
# Which delegates the Rust client submits tasks to

`discover` fetches the identity card and checks its trust domain; nothing else
does, and the required domain is read nowhere. Any number of calls run in any
order, each delegate serves a card with its own domain. What decides is which
URLs the caller opens sessions at.
-/
namespace LdpProtocol.ClientTrust
open InteractivePrograms InterferedRuns ConcurrentCalls TranslatedPrograms
open InteractivePrograms.Program (call_bind uses_pure uses_throw)
open PayloadModes DelegateIdentity MessageTypes EnvelopeSigning SessionManager LdpAdapter
open ClientQuestions
open SessionCache (held_before)
open SessionEstablishment (Talks establishSession_talks)
open JsonValues (Value)

/-- The client's questions and the fetch of an identity card. -/
inductive AdapterCall where
  | client (q : ClientCall)
  | fetchIdentityCard (url : String)

namespace AdapterCall

abbrev Answer : AdapterCall → Type
  | .client q => q.Answer
  | .fetchIdentityCard _ => Except String LdpIdentityCard

/-- Every card served at a URL names the domain of the delegate there. -/
def Meaning (domains : String → TrustDomain) :
    InterferedRuns.Meaning AdapterCall Answer ClientState
  | .client q, s, a, t => ClientCall.Meaning q s a t
  | .fetchIdentityCard url, s, a, t =>
      t = s ∧ ∀ card, a = .ok card → card.trustDomain = domains url

end AdapterCall

abbrev AdapterProgram := Program AdapterCall AdapterCall.Answer String

def lifted {α : Type} (p : ClientProgram α) : AdapterProgram α :=
  translate AdapterCall.client (fun _ a => a) id p

structure RemoteSkill where
  name : String
  description : Option String
  inputSchema : Option Value
  outputSchema : Option Value

/-- Capabilities discovered from a remote delegate. -/
structure RemoteCapabilities where
  name : String
  description : Option String
  skills : List RemoteSkill
  protocols : List String

def identityToCapabilities (identity : LdpIdentityCard) : RemoteCapabilities where
  name := identity.name
  description := identity.description
  skills := identity.capabilities.map fun cap =>
    ⟨cap.name, cap.description, cap.inputSchema, cap.outputSchema⟩
  protocols := ["ldp"]

def discover (config : LdpAdapterConfig) (url : String) : AdapterProgram RemoteCapabilities := do
  let fetched ← Program.call (AdapterCall.fetchIdentityCard url)
  let identity ← Program.ofExcept fetched
  if config.enforceTrustDomains && !config.trustDomain.trusts identity.trustDomain.name then
    .throw ("Trust domain '" ++ identity.trustDomain.name ++ "' is not trusted by '" ++
      config.trustDomain.name ++ "'")
  else pure (identityToCapabilities identity)

inductive AdapterOperation where
  | discover (url : String)
  | perform (operation : Operation)

section
variable (parseRfc3339 : String → Option ℤ) (hmac : Hmac) (config : LdpAdapterConfig)

def AdapterOperation.program : AdapterOperation → AdapterProgram Unit
  | .discover url => do
      let _ ← ClientTrust.discover config url
      pure ()
  | .perform operation => lifted (operation.program parseRfc3339 hmac config)

abbrev TrustConfig :=
  Config AdapterOperation AdapterCall AdapterCall.Answer String Unit ClientState

/-- The configurations that calls lead to, from empty maps. -/
abbrev Reached (domains : String → TrustDomain) (k : TrustConfig) : Prop :=
  Moves (AdapterCall.Meaning domains) (AdapterOperation.program parseRfc3339 hmac config)
    (idle .empty) k

end

/-- A delegate of this domain passes both checks. -/
def Passes (config : LdpAdapterConfig) (domain : TrustDomain) : Prop :=
  config.trustDomain.trusts domain.name = true ∧
    ∀ required, config.session.requiredTrustDomain = some required → domain.name = required

def IsSubmit (e : LdpEnvelope) : Prop :=
  ∃ taskId skill input contract, e.body = .taskSubmit taskId skill input contract

/-- Sessions are cached and tasks are submitted only where the delegate passes. -/
structure OnlyTrusted (config : LdpAdapterConfig) (domains : String → TrustDomain)
    (k : TrustConfig) : Prop where
  cached : ∀ url session, k.state.sessions.lookup url = some session → Passes config (domains url)
  submitted : ∀ x ∈ k.log, ∀ url e, x.event.1 = .client (.sendMessage url e) → IsSubmit e →
    Passes config (domains url)

/-- The operation may open a session at the URL. -/
def Opens (url : String) : AdapterOperation → Prop
  | .perform (.invoke u _) | .perform (.stream u _ _) | .perform (.getOrEstablish u) => u = url
  | _ => False

/-- The question caches a session or submits a task only at URLs in `P`. -/
def Confined (P : String → Prop) : ClientCall → Prop
  | .insertSession url _ => P url
  | .sendMessage url e => IsSubmit e → P url
  | _ => True

abbrev AsksConfined {α : Type} (P : String → Prop) (p : ClientProgram α) : Prop :=
  p.Uses (fun _ _ => True) (Confined P)

section Questions
variable {parseRfc3339 : String → Option ℤ} {hmac : Hmac} {config : LdpAdapterConfig}
  {P P' : String → Prop} {url : String}

theorem Confined.mono (h : ∀ url, P url → P' url) {q : ClientCall} (hq : Confined P q) :
    Confined P' q := by
  cases q with
  | insertSession url session => exact h url hq
  | sendMessage url e => exact fun he => h url (hq he)
  | _ => trivial

theorem confined_of_talks {q : ClientCall} (hq : Talks url q) : Confined (· = url) q := by
  cases q with
  | sendMessage to_ e => exact fun _ => hq
  | insertSession => exact hq.elim
  | _ => trivial

theorem ordinary_confined : Ordinary (Confined P) := ⟨trivial, trivial, trivial⟩

theorem getOrEstablish_confined : AsksConfined (· = url) (getOrEstablish hmac config url) :=
  getOrEstablish_uses ordinary_confined trivial
    ((establishSession_talks hmac config url).mono fun _ => confined_of_talks) fun _ => rfl

theorem invoke_confined (task : TaskRequest) :
    AsksConfined (· = url) (invoke hmac config url task) :=
  invoke_uses ordinary_confined getOrEstablish_confined (fun _ _ _ _ => rfl)
    (fun _ _ _ => trivial) trivial

/-- A message that submits nothing may go anywhere. -/
theorem sends_confined {body : LdpMessageBody}
    (h : ∀ taskId skill input contract, body ≠ .taskSubmit taskId skill input contract) :
    Sends hmac config (Confined P) url body := by
  intro e he hsubmit
  obtain ⟨taskId, skill, input, contract, hbody⟩ := hsubmit
  rw [signIfConfigured_body, he] at hbody
  exact (h taskId skill input contract hbody).elim

theorem pollUpdates_confined (taskId : String) (contract : Option DelegationContract)
    (ticks : ℕ) : AsksConfined P (pollUpdates parseRfc3339 hmac config url taskId contract
      ticks) :=
  pollUpdates_uses ordinary_confined (sends_confined (by simp)) contract ticks

theorem status_confined (taskId : String) :
    AsksConfined P (status parseRfc3339 hmac config url taskId) :=
  status_uses ordinary_confined (sends_confined (by simp)) trivial

theorem cancel_confined (taskId : String) : AsksConfined P (cancel hmac config url taskId) :=
  cancel_uses ordinary_confined (sends_confined (by simp))

theorem close_confined (url : String) : AsksConfined P (close config url) := by
  apply close_uses ordinary_confined trivial
  intro closeMsg hbody hsubmit
  obtain ⟨taskId, skill, input, contract, hsubmit⟩ := hsubmit
  rw [hbody] at hsubmit
  cases hsubmit

theorem closeAll_confined : AsksConfined P (closeAll config) :=
  closeAll_uses trivial close_confined

theorem operation_confined (operation : Operation) :
    AsksConfined (fun url => Opens url (.perform operation))
      (operation.program parseRfc3339 hmac config) := by
  cases operation with
  | invoke url task =>
      refine Program.Uses.bind ?_ fun _ => uses_pure _
      exact (invoke_confined task).mono fun _ => Confined.mono fun _ h => h.symm
  | stream url task ticks =>
      refine Program.Uses.bind ?_ fun _ => uses_pure _
      refine Program.Uses.bind ?_ fun handle => pollUpdates_confined handle.taskId _ ticks
      exact (invoke_confined task).mono fun _ => Confined.mono fun _ h => h.symm
  | getOrEstablish url =>
      refine Program.Uses.bind ?_ fun _ => uses_pure _
      exact getOrEstablish_confined.mono fun _ => Confined.mono fun _ h => h.symm
  | status url taskId => exact (status_confined taskId).bind fun _ => uses_pure _
  | cancel url taskId => exact cancel_confined taskId
  | close url => exact close_confined url
  | closeAll => exact closeAll_confined

/-- The same for the questions of the adapter. -/
def AdapterConfined (P : String → Prop) : AdapterCall → Prop
  | .client q => Confined P q
  | .fetchIdentityCard _ => True

theorem lifted_confined {α : Type} {p : ClientProgram α} (hp : AsksConfined P p) :
    (lifted p).Uses (fun _ _ => True) (AdapterConfined P) := by
  apply uses_translate _ hp
  intro q hq
  exact hq

theorem program_confined (operation : AdapterOperation) :
    (operation.program parseRfc3339 hmac config).Uses (fun _ _ => True)
      (AdapterConfined fun url => Opens url operation) := by
  cases operation with
  | perform operation => exact lifted_confined (operation_confined operation)
  | discover url =>
      refine Program.Uses.bind ?_ fun _ => uses_pure _
      refine ⟨trivial, ?_⟩
      intro fetched _
      apply (Program.uses_ofExcept fetched).bind
      intro identity
      split
      · exact uses_throw _
      · exact uses_pure _

end Questions

section Runs
variable {parseRfc3339 : String → Option ℤ} {hmac : Hmac} {config : LdpAdapterConfig}
  {domains : String → TrustDomain} {k : TrustConfig} {url : String}

/-- A cached session was inserted by some call. -/
theorem inserted_of_cached (h : Reached parseRfc3339 hmac config domains k)
    (hl : (k.state.sessions.lookup url).isSome = true) :
    ∃ x ∈ k.log, ∃ session, x.event.1 = .client (.insertSession url session) := by
  induction h with
  | refl => cases hl
  | @tail k₁ k₂ _ hmove ih =>
      cases hmove with
      | start operation => exact ih hl
      | @act i operation q next a t hi hm =>
          have hkept : (k₁.state.sessions.lookup url).isSome = true →
              ∃ x ∈ k₁.log ++ [⟨i, k₁.state, ⟨q, a⟩⟩], ∃ session,
                x.event.1 = .client (.insertSession url session) := by
            intro hbefore
            obtain ⟨x, hx, hinserts⟩ := ih hbefore
            exact ⟨x, List.mem_append_left _ hx, hinserts⟩
          cases q with
          | client q =>
              obtain ⟨session, hnew⟩ := Option.isSome_iff_exists.mp hl
              rcases held_before hm hnew with ⟨held, hbefore, _⟩ | hq
              · exact hkept (Option.isSome_iff_exists.mpr ⟨held, hbefore⟩)
              · subst hq
                exact ⟨_, List.mem_append_right _ (List.mem_singleton_self _), session, rfl⟩
          | fetchIdentityCard v =>
              have ht : t = k₁.state := hm.1
              rw [ht] at hl
              exact hkept hl

/-- Every question was asked by an operation that may ask it. -/
theorem entry_confined (h : Reached parseRfc3339 hmac config domains k)
    {x : Entry AdapterCall AdapterCall.Answer ClientState} (hx : x ∈ k.log) :
    ∃ operation ∈ k.calls.map Prod.fst,
      AdapterConfined (fun url => Opens url operation) x.event.1 := by
  have hlt := h.follows.caller x hx
  have hcall := List.getElem?_eq_getElem hlt
  have halong := h.follows.along x.caller _ _ hcall
  exact ⟨_, List.mem_map_of_mem (List.getElem_mem hlt),
    halong.uses (program_confined _) _ (mem_traceOf.mpr ⟨x, hx, rfl, rfl⟩)⟩

theorem onlyTrusted_of_opens (h : Reached parseRfc3339 hmac config domains k)
    (hpasses : ∀ operation ∈ k.calls.map Prod.fst, ∀ url, Opens url operation →
      Passes config (domains url)) : OnlyTrusted config domains k := by
  constructor
  · intro url session hl
    obtain ⟨x, hx, opened, hq⟩ := inserted_of_cached h (Option.isSome_iff_exists.mpr ⟨_, hl⟩)
    obtain ⟨operation, hmem, hconfined⟩ := entry_confined h hx
    rw [hq] at hconfined
    exact hpasses operation hmem url hconfined
  · intro x hx url e hq hsubmit
    obtain ⟨operation, hmem, hconfined⟩ := entry_confined h hx
    rw [hq] at hconfined
    exact hpasses operation hmem url (hconfined hsubmit)

/-- Peers that accept everything, for a client that may sign. -/
theorem established_on_empty (hmac : Hmac) (config : LdpAdapterConfig) (url : String) :
    ∃ tr session t, Run ClientCall.Meaning Quiet (getOrEstablish hmac config url)
      ClientState.empty tr t (.ok session) ∧ (t.sessions.lookup url).isSome = true := by
  obtain ⟨delegateId, trustDomain, session, enforce, attach, secret⟩ := config
  cases secret with
  | none =>
      refine ⟨_, _, _, exec_run ClientSigning.accepting ClientSigning.accepting_meaning _ _, ?_⟩
      exact Option.isSome_iff_exists.mpr ⟨_, AList.lookup_insert _⟩
  | some secret =>
      refine ⟨_, _, _, exec_run ClientSigning.accepting ClientSigning.accepting_meaning _ _, ?_⟩
      exact Option.isSome_iff_exists.mpr ⟨_, AList.lookup_insert _⟩

/-- Each operation that opens a session starts with nothing else. -/
theorem opens_first {operation : Operation} (hopens : Opens url (.perform operation)) :
    ∃ rest : LdpSession → ClientProgram Unit,
      operation.program parseRfc3339 hmac config = getOrEstablish hmac config url >>= rest := by
  cases operation with
  | invoke u task =>
      cases hopens
      exact ⟨_, bind_assoc _ _ _⟩
  | stream u task ticks =>
      cases hopens
      exact ⟨_, (congrArg (· >>= _) (bind_assoc _ _ _)).trans (bind_assoc _ _ _)⟩
  | getOrEstablish u =>
      cases hopens
      exact ⟨_, rfl⟩
  | _ => exact hopens.elim

/-- A peer that accepts every proposal gets its session cached, whatever its domain. -/
theorem passes_of_onlyTrusted {operations : List AdapterOperation}
    (hall : ∀ k, Reached parseRfc3339 hmac config domains k → k.calls.map Prod.fst = operations →
      OnlyTrusted config domains k) {operation : AdapterOperation} (hmem : operation ∈ operations)
    (hopens : Opens url operation) : Passes config (domains url) := by
  cases operation with
  | discover u => exact hopens.elim
  | perform operation =>
      obtain ⟨rest, hfirst⟩ :
          ∃ rest : LdpSession → ClientProgram Unit,
            operation.program parseRfc3339 hmac config = getOrEstablish hmac config url >>= rest :=
        opens_first hopens
      have hprogram : AdapterOperation.program parseRfc3339 hmac config (.perform operation) =
          lifted (getOrEstablish hmac config url) >>= fun session => lifted (rest session) := by
        rw [AdapterOperation.program, hfirst]
        exact translate_bind _ _ _ _ _
      obtain ⟨tr, session, t, hrun, hcached⟩ := established_on_empty hmac config url
      obtain ⟨tr', hlifted⟩ : ∃ tr', Run (AdapterCall.Meaning domains) Quiet
          (lifted (getOrEstablish hmac config url)) ClientState.empty tr' t (.ok session) := by
        apply run_translate _ hrun
        intro q s a u hm
        exact ⟨a, rfl, hm⟩
      have hstarted := Moves.startAll (AdapterCall.Meaning domains)
        (AdapterOperation.program parseRfc3339 hmac config) ClientState.empty operations
      obtain ⟨i, hi⟩ := List.mem_iff_getElem?.mp hmem
      have hcall : (operations.map fun c =>
          (c, AdapterOperation.program parseRfc3339 hmac config c))[i]? = some (.perform operation,
            lifted (getOrEstablish hmac config url) >>= fun session => lifted (rest session)) := by
        rw [List.getElem?_map, hi, ← hprogram]
        rfl
      obtain ⟨steps, hmoves, _⟩ := Moves.advance (k := ⟨[], ClientState.empty, operations.map
        fun c => (c, AdapterOperation.program parseRfc3339 hmac config c)⟩) _ hcall hlifted
      obtain ⟨opened, hl⟩ := Option.isSome_iff_exists.mp hcached
      refine (hall _ (hstarted.trans hmoves) ?_).cached url opened hl
      simp only [List.map_set, List.map_map]
      rw [set_eq_of_getElem?]
      · exact List.map_id operations
      · rw [List.getElem?_map, hi]
        rfl

/-- Whatever the interleaving and whatever the delegates answer, sessions are cached
and tasks submitted only at delegates that pass both checks, exactly when the
caller opens sessions at no others. -/
theorem onlyTrusted_iff (parseRfc3339 : String → Option ℤ) (hmac : Hmac)
    (config : LdpAdapterConfig) (domains : String → TrustDomain)
    (operations : List AdapterOperation) :
    (∀ k, Reached parseRfc3339 hmac config domains k → k.calls.map Prod.fst = operations →
      OnlyTrusted config domains k) ↔
    ∀ operation ∈ operations, ∀ url, Opens url operation → Passes config (domains url) := by
  constructor
  · intro hall operation hmem url hopens
    exact passes_of_onlyTrusted hall hmem hopens
  · intro hpasses k h hk
    apply onlyTrusted_of_opens h
    rw [hk]
    exact hpasses

end Runs

def strangers (_ : String) : TrustDomain := { name := "evil" }

/-- A delegate of another domain, which nobody trusts, is invoked. -/
theorem untrusted_invoked : ¬ ∀ (parseRfc3339 : String → Option ℤ) (hmac : Hmac)
    (config : LdpAdapterConfig) (domains : String → TrustDomain) (k : TrustConfig),
    config.enforceTrustDomains = true → Reached parseRfc3339 hmac config domains k →
    OnlyTrusted config domains k := by
  intro h
  let operation : AdapterOperation := .perform (.invoke "u" ⟨"echo", .string "x", none⟩)
  have hall : ∀ k, Reached (fun _ => none) submissionMac {} strangers k →
      k.calls.map Prod.fst = [operation] → OnlyTrusted {} strangers k :=
    fun k hk _ => h _ _ _ _ k rfl hk
  have hopens : Opens "u" operation := rfl
  have hpasses := passes_of_onlyTrusted hall (List.mem_singleton_self _) hopens
  exact absurd hpasses.1 (by decide)

end LdpProtocol.ClientTrust
