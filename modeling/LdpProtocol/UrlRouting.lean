import LdpProtocol.HttpRequests
import LdpProtocol.MonitoredCalls

/-!
# Which URLs the registry gives the adapter

The registry resolves a URL to the first adapter with a prefix of it. The LDP adapter
is registered for `ldp://`, and puts the URLs it gets in front of its paths as they
are. An HTTP library that knows no scheme of that name answers with an error, and so
does the adapter at each URL that its registration has brought to it.
-/
namespace LdpProtocol.UrlRouting
open InteractivePrograms InterferedRuns ConcurrentCalls TranslatedPrograms TranslatedRuns
open InteractivePrograms.Program (call_bind pure_eq pure_bind_eq)
open MonitoredCalls EnvelopeSigning LdpAdapter
open SessionManager (ClientCall ClientState LdpAdapterConfig ClientProgram newEnvelope sendSigned
  establishSession establishAndCache getOrEstablish isActive)
open ClientTrust (AdapterCall AdapterOperation Opens Confined AdapterConfined)
open SessionCache (held_before)
open HttpClient HttpRequests

/-! ## The registry -/

/-- Adapters of any kind, each with its name and the URL prefixes it is for. -/
structure ProtocolRegistry (α : Type) where
  adapters : List (String × α × List String) := []

namespace ProtocolRegistry
variable {α : Type} (registry : ProtocolRegistry α)

def register (name : String) (adapter : α) (urlPrefixes : List String) : ProtocolRegistry α where
  adapters := registry.adapters ++ [(name, adapter, urlPrefixes)]

def adapter (name : String) : Option α :=
  (registry.adapters.find? fun x => x.1 = name).map fun x => x.2.1

/-- `url.starts_with(p)` for one of the prefixes. -/
def handles (url : String) (urlPrefixes : List String) : Bool :=
  urlPrefixes.any fun p => p.toList.isPrefixOf url.toList

def adapterForUrl (url : String) : Option α :=
  (registry.adapters.find? fun x => handles url x.2.2).map fun x => x.2.1

def protocols : List String := registry.adapters.map Prod.fst

/-- A later registration changes nothing for a URL that has an adapter. -/
theorem adapterForUrl_register (name : String) (adapter : α) (urlPrefixes : List String)
    (url : String) : (registry.register name adapter urlPrefixes).adapterForUrl url =
      (registry.adapterForUrl url).or (if handles url urlPrefixes then some adapter else none) := by
  unfold adapterForUrl register
  rw [List.find?_append, Option.map_or]
  congr 1
  by_cases h : handles url urlPrefixes = true
  · simp [h]
  · simp [h]

end ProtocolRegistry

/-- Register the LDP adapter; `newAdapter` is `LdpAdapter::new`. -/
def registerLdp {α : Type} (newAdapter : LdpAdapterConfig → α) (registry : ProtocolRegistry α)
    (config : Option LdpAdapterConfig) : ProtocolRegistry α :=
  registry.register "ldp" (newAdapter (config.getD {})) ["ldp://"]

/-- The URLs of the scheme. -/
def IsLdp (url : String) : Prop := "ldp://".toList <+: url.toList

instance (url : String) : Decidable (IsLdp url) := inferInstanceAs (Decidable (_ <+: _))

/-- What the registration brings to the adapter. -/
theorem isLdp_of_registered {α : Type} {newAdapter : LdpAdapterConfig → α}
    {registry : ProtocolRegistry α} {config : Option LdpAdapterConfig} {url : String} {a : α}
    (hbefore : registry.adapterForUrl url = none)
    (hserved : (registerLdp newAdapter registry config).adapterForUrl url = some a) :
    IsLdp url ∧ a = newAdapter (config.getD {}) := by
  unfold registerLdp at hserved
  rw [ProtocolRegistry.adapterForUrl_register, hbefore, Option.none_or] at hserved
  split at hserved
  · next h =>
      refine ⟨?_, (Option.some.inj hserved).symm⟩
      simpa [ProtocolRegistry.handles, IsLdp] using h
  · cases hserved

/-! ## Endpoints -/

theorem rdropWhile_append {β : Type} {p : β → Bool} {l : List β} (hl : l.rdropWhile p = l)
    (more : List β) : ∃ kept, (l ++ more).rdropWhile p = l ++ kept := by
  induction more using List.reverseRecOn with
  | nil => exact ⟨[], by rw [List.append_nil, hl]⟩
  | append_singleton more x ih =>
      rw [← List.append_assoc, List.rdropWhile_concat]
      split
      · exact ih
      · exact ⟨more ++ [x], List.append_assoc ..⟩

/-- The scheme of a URL is that of its endpoints. -/
def InScheme (endpoint : String) : Prop := "ldp:".toList <+: endpoint.toList

theorem inScheme_endpointAt {url : String} (h : IsLdp url) (path : String) :
    InScheme (endpointAt url path) := by
  obtain ⟨rest, hrest⟩ := h
  have hurl : url.toList = "ldp:".toList ++ ("//".toList ++ rest) := hrest.symm
  obtain ⟨kept, hkept⟩ := rdropWhile_append (p := fun c => c == '/') (l := "ldp:".toList)
    (by decide) ("//".toList ++ rest)
  have htrimmed : (trimEndSlashes url).toList = "ldp:".toList ++ kept := by
    unfold trimEndSlashes
    rw [hurl, hkept]
    exact String.toList_ofList
  refine ⟨kept ++ path.toList, ?_⟩
  unfold endpointAt
  rw [String.toList_append, htrimmed, List.append_assoc]

/-! ## A monitor of the client -/

/-- Nobody answers at a URL of the scheme, and no session is kept for one. -/
def clientMonitor : Monitor ClientCall ClientCall.Answer Unit where
  after _ _ := ()
  allows _
    | ⟨.insertSession url _, _⟩ => ¬ IsLdp url
    | _ => True
  expects
    | ⟨.sendMessage url _, a⟩ => IsLdp url → ∃ e, a = .error e
    | _ => True

def adapterMonitor : Monitor AdapterCall AdapterCall.Answer Unit where
  after _ _ := ()
  allows _
    | ⟨.client q, a⟩ => clientMonitor.allows () ⟨q, a⟩
    | _ => True
  expects
    | ⟨.client q, a⟩ => clientMonitor.expects ⟨q, a⟩
    | ⟨.fetchIdentityCard url, a⟩ => IsLdp url → ∃ e, a = .error e

/-- The program ends in an error. -/
abbrev Fails {α : Type} (p : ClientProgram α) : Prop :=
  clientMonitor.Obeys p () fun _ r => ∃ e, r = .error e

section Client
variable {parseRfc3339 : String → Option ℤ} {hmac : Hmac} {config : LdpAdapterConfig}
  {url : String}

theorem Fails.bind {α β : Type} {p : ClientProgram α} (h : Fails p) (f : α → ClientProgram β) :
    Fails (p >>= f) := by
  apply Monitor.Obeys.bind h
  · intro _ a hfailed
    obtain ⟨e, he⟩ := hfailed
    cases he
  · intro _ e _
    exact ⟨e, rfl⟩

/-- Whatever comes before, the program fails if what follows does. -/
theorem fails_after {α β : Type} {p : ClientProgram α} {f : α → ClientProgram β}
    (hp : clientMonitor.Obeys p () fun _ _ => True) (hf : ∀ a, Fails (f a)) : Fails (p >>= f) :=
  Monitor.Obeys.bind hp (fun _ a _ => hf a) fun _ e _ => ⟨e, rfl⟩

theorem sendSigned_fails (h : IsLdp url) (e : MessageTypes.LdpEnvelope) :
    Fails (sendSigned hmac config url e) := by
  intro answer hanswer
  obtain ⟨text, rfl⟩ := hanswer h
  exact ⟨trivial, text, rfl⟩

/-- A new message is sent to nobody. -/
theorem sends_fails {α : Type} (h : IsLdp url) {sessionId from_ to_ : String}
    {body : MessageTypes.LdpMessageBody} {mode : PayloadModes.PayloadMode}
    (f : MessageTypes.LdpEnvelope → MessageTypes.LdpEnvelope → ClientProgram α) :
    Fails (newEnvelope sessionId from_ to_ body mode >>= fun message =>
      sendSigned hmac config url message >>= f message) := by
  apply fails_after
  · exact fun _ _ => ⟨trivial, fun _ _ => ⟨trivial, trivial⟩⟩
  · exact fun message => (sendSigned_fails h message).bind _

theorem establishSession_fails (h : IsLdp url) : Fails (establishSession hmac config url) :=
  sends_fails h _

/-- A new session is not established; one that is kept may be found. -/
theorem getOrEstablish_obeys (h : IsLdp url) : clientMonitor.Obeys
    (getOrEstablish hmac config url) () fun _ _ => True := by
  have hnew : clientMonitor.Obeys (establishAndCache hmac config url) () fun _ _ => True :=
    ((establishSession_fails h).bind _).imp fun _ _ _ => trivial
  unfold getOrEstablish SessionManager.getSession
  simp only [call_bind]
  intro cached _
  refine ⟨trivial, ?_⟩
  cases cached with
  | none => exact hnew
  | some session =>
      have hactive : clientMonitor.Obeys (isActive session) () fun _ _ => True := by
        unfold isActive
        split
        · exact fun _ _ => ⟨trivial, trivial⟩
        · trivial
      apply hactive.bind
      · intro _ active _
        cases active with
        | true => trivial
        | false => exact hnew
      · exact fun _ _ _ => trivial

theorem invoke_fails (h : IsLdp url) (task : TaskRequest) :
    Fails (invoke hmac config url task) := by
  unfold invoke SessionManager.newV4
  simp only [call_bind]
  apply fails_after (getOrEstablish_obeys h)
  intro session taskId _
  exact ⟨trivial, sends_fails h _⟩

theorem status_fails (h : IsLdp url) (taskId : String) :
    Fails (status parseRfc3339 hmac config url taskId) := by
  unfold status statusQuery
  exact sends_fails h _

theorem cancel_fails (h : IsLdp url) (taskId : String) :
    Fails (cancel hmac config url taskId) := by
  unfold cancel
  exact sends_fails h _

end Client

/-! ## Operations of the adapter -/

/-- A method of the adapter is called with the URL. -/
def Requests (url : String) : AdapterOperation → Prop
  | .discover u => u = url
  | .perform (.invoke u _) => u = url
  | .perform (.stream u _ _) => u = url
  | .perform (.status u _) => u = url
  | .perform (.cancel u _) => u = url
  | _ => False

section Operations
variable {describe : JsonValues.Value → String} {parseRfc3339 : String → Option ℤ} {hmac : Hmac}
  {config : LdpAdapterConfig} {url : String}

/-- An operation that opens sessions elsewhere keeps none for a URL of the scheme. -/
theorem elsewhere_obeys {operation : Operation}
    (h : ∀ url, Opens url (.perform operation) → ¬ IsLdp url) :
    clientMonitor.Obeys (operation.program parseRfc3339 hmac config) () fun _ _ => True := by
  apply Monitor.Obeys.of_uses (ClientTrust.operation_confined operation)
  intro _ q a hq
  cases q with
  | insertSession url session => exact h url hq
  | _ => trivial

/-- The post-condition of a call: it ends in an error if it was for such a URL. -/
abbrev Refused {α : Type} (operation : AdapterOperation) (_ : Unit) (r : Except String α) : Prop :=
  ∀ url, IsLdp url → Requests url operation → ∃ e, r = .error e

theorem operation_obeys (operation : Operation) : clientMonitor.Obeys
    (operation.program parseRfc3339 hmac config) () (Refused (.perform operation)) := by
  by_cases h : ∃ url, IsLdp url ∧
      (Requests url (.perform operation) ∨ Opens url (.perform operation))
  · obtain ⟨url, hldp, hurl⟩ := h
    cases operation with
    | invoke u task =>
        have hu : u = url := hurl.elim id id
        subst hu
        exact ((invoke_fails hldp task).bind _).imp fun _ _ hfailed _ _ _ => hfailed
    | stream u task ticks =>
        have hu : u = url := hurl.elim id id
        subst hu
        exact (((invoke_fails hldp task).bind _).bind _).imp fun _ _ hfailed _ _ _ => hfailed
    | status u taskId =>
        have hu : u = url := hurl.elim id False.elim
        subst hu
        exact ((status_fails hldp taskId).bind _).imp fun _ _ hfailed _ _ _ => hfailed
    | cancel u taskId =>
        have hu : u = url := hurl.elim id False.elim
        subst hu
        exact (cancel_fails hldp taskId).imp fun _ _ hfailed _ _ _ => hfailed
    | getOrEstablish u =>
        have hu : u = url := hurl.elim False.elim id
        subst hu
        apply (getOrEstablish_obeys hldp).bind
        · exact fun _ _ _ _ _ hrequests => hrequests.elim
        · exact fun _ _ _ _ _ hrequests => hrequests.elim
    | close u => exact (hurl.elim id id).elim
    | closeAll => exact (hurl.elim id id).elim
  · refine (elsewhere_obeys ?_).imp ?_
    · exact fun url hopens hldp => h ⟨url, hldp, .inr hopens⟩
    · exact fun _ _ _ url hldp hrequests => (h ⟨url, hldp, .inl hrequests⟩).elim

theorem discover_obeys (u : String) : adapterMonitor.Obeys
    (AdapterOperation.program parseRfc3339 hmac config (.discover u)) ()
    (Refused (.discover u)) := by
  by_cases hldp : IsLdp u
  · intro fetched hfetched
    obtain ⟨e, rfl⟩ := hfetched hldp
    exact ⟨trivial, fun _ _ _ => ⟨e, rfl⟩⟩
  · have hobeys : adapterMonitor.Obeys
        (AdapterOperation.program parseRfc3339 hmac config (.discover u)) () fun _ _ => True := by
      apply Monitor.Obeys.of_uses (ClientTrust.program_confined (.discover u))
      intro _ q a hq
      cases q with
      | fetchIdentityCard url => trivial
      | client q =>
          cases q with
          | insertSession url session => exact hq.elim
          | _ => trivial
    apply hobeys.imp
    rintro _ _ _ url hurl rfl
    exact (hldp hurl).elim

theorem program_obeys (operation : AdapterOperation) : adapterMonitor.Obeys
    (operation.program parseRfc3339 hmac config) () (Refused operation) := by
  cases operation with
  | discover u => exact discover_obeys u
  | perform operation =>
      have htranslated : adapterMonitor.Obeys
          (ClientTrust.lifted (operation.program parseRfc3339 hmac config)) ()
          fun _ r => ∃ r₀, Refused (.perform operation) () r₀ ∧ r = r₀.mapError id := by
        refine Monitor.Obeys.translate ?_ ?_ ?_ (operation_obeys operation)
        · exact fun _ _ ha => ha
        · exact fun _ _ _ ha => ha
        · exact fun _ _ _ => rfl
      apply htranslated.imp
      intro _ r hr url hldp hrequests
      obtain ⟨r₀, hrefused, rfl⟩ := hr
      obtain ⟨e, rfl⟩ := hrefused url hldp hrequests
      exact ⟨e, rfl⟩

/-! ## Runs -/

/-- The HTTP library has no scheme of that name. -/
def Refusing : InterferedRuns.Meaning WebCall WebCall.Answer ClientState
  | .own q, s, a, t => Meaning (.own q) s a t
  | .http q, s, a, t => Meaning (.http q) s a t ∧ (InScheme q.endpoint → ∃ e, a = .error e)

def Unserved : InterferedRuns.Meaning AdapterCall AdapterCall.Answer ClientState :=
  fun q s a t => Free q s a t ∧ adapterMonitor.expects ⟨q, a⟩

theorem unserved_of_refusing (q : AdapterCall) (s : ClientState) (a : (onWire q).Answer)
    (t : ClientState) (h : Refusing (onWire q) s a t) : Unserved q s (offWire describe q a) t := by
  cases q with
  | fetchIdentityCard url =>
      refine ⟨h.1, ?_⟩
      intro hldp
      obtain ⟨e, rfl⟩ := h.2 (inScheme_endpointAt hldp _)
      exact ⟨_, rfl⟩
  | client q =>
      cases q with
      | sendMessage url message =>
          refine ⟨h.1, ?_⟩
          intro hldp
          obtain ⟨e, rfl⟩ := h.2 (inScheme_endpointAt hldp _)
          exact ⟨_, rfl⟩
      | _ => exact ⟨h, trivial⟩

/-- The configurations that calls over such a library lead to. -/
abbrev ReachedRefusing (describe : JsonValues.Value → String) (parseRfc3339 : String → Option ℤ)
    (hmac : Hmac) (config : LdpAdapterConfig) (k : WebConfig) : Prop :=
  Moves Refusing (fun operation => overHttp describe
    (AdapterOperation.program parseRfc3339 hmac config operation)) (idle .empty) k

theorem none_kept {config : LdpAdapterConfig} {k : ClientTrust.TrustConfig}
    (h : Moves Unserved (AdapterOperation.program parseRfc3339 hmac config) (idle .empty) k) :
    ∀ url, IsLdp url → k.state.sessions.lookup url = none := by
  have hstep : ∀ (log : List (Entry AdapterCall AdapterCall.Answer ClientState)) (s : ClientState)
      (monitors : ℕ → Unit) (i : ℕ) (q : AdapterCall) (a : q.Answer) (t : ClientState),
      (∀ url, IsLdp url → s.sessions.lookup url = none) → Unserved q s a t →
      adapterMonitor.allows (monitors i) ⟨q, a⟩ →
      ∀ url, IsLdp url → t.sessions.lookup url = none := by
    intro log s monitors i q a t hnone hm hallowed url hldp
    cases q with
    | fetchIdentityCard u =>
        rw [show t = s from hm.1]
        exact hnone url hldp
    | client q =>
        rw [Option.eq_none_iff_forall_not_mem]
        intro session hsession
        rcases held_before hm.1 hsession with ⟨held, hheld, _⟩ | rfl
        · rw [hnone url hldp] at hheld
          cases hheld
        · exact hallowed hldp
  obtain ⟨_, hkept, _⟩ := Moves.monitored
    (G := fun _ s _ => ∀ url, IsLdp url → s.sessions.lookup url = none)
    (fun operation => (program_obeys operation).imp fun _ _ _ => trivial)
    (fun _ _ _ _ hm => hm.2) (fun _ _ => rfl) hstep h
  exact hkept

/-- A URL that the registration of the LDP adapter has brought to it is served by no
call of the adapter: in every run, each call of a method with the URL that has ended
has ended in an error, and no session is kept for it. -/
theorem registered_unserved {α : Type} {newAdapter : LdpAdapterConfig → α}
    {registry : ProtocolRegistry α} {given : Option LdpAdapterConfig} {a : α}
    (hbefore : registry.adapterForUrl url = none)
    (hserved : (registerLdp newAdapter registry given).adapterForUrl url = some a) {k : WebConfig}
    (h : ReachedRefusing describe parseRfc3339 hmac (given.getD {}) k) :
    a = newAdapter (given.getD {}) ∧ k.state.sessions.lookup url = none ∧
      ∀ (i : ℕ) operation r, k.calls[i]? = some (operation, done r) → Requests url operation →
        ∃ e, r = .error e := by
  obtain ⟨hldp, ha⟩ := isLdp_of_registered hbefore hserved
  obtain ⟨k₀, hreached, hmirrors⟩ := Moves.mirrored unserved_of_refusing h
  refine ⟨ha, ?_, ?_⟩
  · rw [hmirrors.state]
    exact none_kept hreached url hldp
  · intro i operation r hcall hrequests
    obtain ⟨r₀, hcall₀, rfl⟩ := hmirrors.finished hcall
    have hexpected : ∀ ev ∈ traceOf i k₀.log, adapterMonitor.expects ev := by
      intro ev hev
      obtain ⟨x, hx, _, rfl⟩ := mem_traceOf.mp hev
      obtain ⟨_, hm⟩ := Moves.meant hreached x hx
      exact hm.2
    have halong := (Moves.follows hreached).along i _ _ hcall₀
    obtain ⟨e, rfl⟩ :=
      (program_obeys operation).along halong hexpected url hldp hrequests
    exact ⟨e, rfl⟩

end Operations

theorem unreachable_refusing (q : WebCall) (s : ClientState) :
    Refusing q s (unreachable q s).1 (unreachable q s).2 := by
  cases q with
  | own q => exact q.offline_meaning s
  | http q => exact ⟨rfl, fun _ => ⟨_, rfl⟩⟩

/-- A delegate at a URL of the scheme is invoked with the defaults. -/
theorem registered_unserved_example : ∃ (k : WebConfig) (r : Except String Unit) (e : String),
    (registerLdp id {} none).adapterForUrl "ldp://delegate.example.com" = some {} ∧
      ReachedRefusing (fun _ => "") (fun _ => none) submissionMac {} k ∧
      k.calls[0]? = some (.perform (.invoke "ldp://delegate.example.com" ⟨"echo", .null, none⟩),
        done r) ∧ r = .error e := by
  have hserved : (registerLdp id {} none).adapterForUrl "ldp://delegate.example.com" =
      some {} := rfl
  let invoked : AdapterOperation :=
    .perform (.invoke "ldp://delegate.example.com" ⟨"echo", .null, none⟩)
  let run : AdapterOperation → WebProgram Unit := fun operation => overHttp (fun _ => "")
    (AdapterOperation.program (fun _ => none) submissionMac {} operation)
  obtain ⟨tr, t, r, hrun⟩ : ∃ tr t r, Run Refusing Quiet (run invoked) ClientState.empty tr t r :=
    ⟨_, _, _, exec_run unreachable unreachable_refusing _ _⟩
  obtain ⟨steps, hmoves, _⟩ := Moves.call (idle ClientState.empty) hrun
  obtain ⟨_, _, hrefused⟩ := registered_unserved rfl hserved hmoves
  obtain ⟨e, he⟩ := hrefused 0 invoked r rfl rfl
  exact ⟨_, r, e, hserved, hmoves, rfl, he⟩

end LdpProtocol.UrlRouting
