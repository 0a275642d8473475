import LdpProtocol.HttpClient

/-!
# Where the adapter's requests go

Any number of calls of the adapter run over HTTP, and the servers answer what they
like. A call sends its requests to the two endpoints of the URL it was given; when all
sessions are closed, to those of URLs at which calls could open one. No card, no
endpoint on it and no message of a delegate leads the adapter anywhere else.
-/
namespace LdpProtocol.HttpRequests
open InteractivePrograms InterferedRuns ConcurrentCalls TranslatedPrograms TranslatedRuns
open InteractivePrograms.Program (uses_pure uses_throw)
open EnvelopeSigning LdpAdapter ClientQuestions
open SessionManager (ClientCall ClientState LdpAdapterConfig ClientProgram close closeEach
  closeAll getOrEstablish)
open ClientTrust (AdapterCall AdapterOperation Opens)
open SessionCache (held_before)
open HttpClient

/-- The URL that a call is given. -/
def Names (url : String) : AdapterOperation → Prop
  | .discover u => u = url
  | .perform (.invoke u _) => u = url
  | .perform (.stream u _ _) => u = url
  | .perform (.status u _) => u = url
  | .perform (.cancel u _) => u = url
  | .perform (.getOrEstablish u) => u = url
  | .perform (.close u) => u = url
  | .perform .closeAll => False

/-- What the client asks of a server it asks at these URLs. -/
def Aims (P : String → Prop) : ClientCall → Prop
  | .sendMessage url _ => P url
  | _ => True

/-- The URLs in the cache are among these. -/
def Listed (P : String → Prop) : (q : ClientCall) → q.Answer → Prop
  | .sessionUrls, urls => ∀ url ∈ urls, P url
  | _, _ => True

/-- The call may send a message to this URL, and ask for the card there. -/
inductive Reaches (P : String → Prop) (operation : AdapterOperation) (url : String) : Prop
  | named : Names url operation → Reaches P operation url
  | cached : operation = .perform .closeAll → P url → Reaches P operation url

def AdapterAims (P : String → Prop) (operation : AdapterOperation) : AdapterCall → Prop
  | .client q => Aims (Reaches P operation) q
  | .fetchIdentityCard url => operation = .discover url

def AdapterListed (P : String → Prop) : (q : AdapterCall) → q.Answer → Prop
  | .client q, a => Listed P q a
  | .fetchIdentityCard _, _ => True

section Questions
variable {parseRfc3339 : String → Option ℤ} {hmac : Hmac} {config : LdpAdapterConfig}
  {P P' : String → Prop} {url : String}

theorem ordinary_aims : Ordinary (Aims P) := ⟨trivial, trivial, trivial⟩

theorem getOrEstablish_aims (h : P url) :
    (getOrEstablish hmac config url).Uses (Listed P') (Aims P) :=
  getOrEstablish_uses ordinary_aims trivial
    (establishSession_uses ordinary_aims (fun _ _ => h) fun _ _ _ => h) fun _ => trivial

theorem invoke_aims (h : P url) (task : TaskRequest) :
    (invoke hmac config url task).Uses (Listed P') (Aims P) :=
  invoke_uses ordinary_aims (getOrEstablish_aims h) (fun _ _ _ => h) (fun _ _ _ => trivial) trivial

theorem close_aims (h : P url) : (close config url).Uses (Listed P') (Aims P) :=
  close_uses ordinary_aims trivial fun _ _ => h

theorem closeEach_aims {urls : List String} (h : ∀ url ∈ urls, P url) :
    (closeEach config urls).Uses (Listed P') (Aims P) := by
  induction urls with
  | nil => exact uses_pure _
  | cons url urls ih =>
      apply (close_aims (h url List.mem_cons_self)).bind
      intro _
      exact ih fun other hother => h other (List.mem_cons_of_mem _ hother)

theorem operation_aims (operation : Operation) :
    (operation.program parseRfc3339 hmac config).Uses (Listed P)
      (Aims (Reaches P (.perform operation))) := by
  cases operation with
  | invoke url task => exact (invoke_aims (.named rfl) task).bind fun _ => uses_pure _
  | stream url task ticks =>
      refine Program.Uses.bind ?_ fun _ => uses_pure _
      exact stream_uses ordinary_aims (invoke_aims (.named rfl) task) fun _ _ _ => .named rfl
  | status url taskId =>
      refine Program.Uses.bind ?_ fun _ => uses_pure _
      exact status_uses ordinary_aims (fun _ _ => .named rfl) trivial
  | cancel url taskId => exact cancel_uses ordinary_aims fun _ _ => .named rfl
  | getOrEstablish url => exact (getOrEstablish_aims (.named rfl)).bind fun _ => uses_pure _
  | close url => exact close_aims (.named rfl)
  | closeAll =>
      refine ⟨trivial, ?_⟩
      intro urls hurls
      exact closeEach_aims fun url hurl => .cached rfl (hurls url hurl)

theorem program_aims (operation : AdapterOperation) :
    (operation.program parseRfc3339 hmac config).Uses (AdapterListed P)
      (AdapterAims P operation) := by
  cases operation with
  | perform operation =>
      refine uses_translate_allowed (f := AdapterCall.client) ?_ ?_
        (operation_aims (P := P) operation)
      · exact fun _ _ ha => ha
      · exact fun _ hq => hq
  | discover url =>
      refine Program.Uses.bind ?_ fun _ => uses_pure _
      refine ⟨rfl, ?_⟩
      intro fetched _
      apply (Program.uses_ofExcept fetched).bind
      intro identity
      split
      · exact uses_throw _
      · exact uses_pure _

end Questions

/-! ## Runs -/

/-- The adapter's own maps; what servers answer is free. -/
def Free : InterferedRuns.Meaning AdapterCall AdapterCall.Answer ClientState
  | .client q, s, a, t => ClientCall.Meaning q s a t
  | .fetchIdentityCard _, s, _, t => t = s

/-- The same over HTTP. -/
def Meaning : InterferedRuns.Meaning WebCall WebCall.Answer ClientState
  | .own q, s, a, t => ClientCall.Meaning q s a t
  | .http _, s, _, t => t = s

section Runs
variable (describe : JsonValues.Value → String) (parseRfc3339 : String → Option ℤ) (hmac : Hmac)
  (config : LdpAdapterConfig)

abbrev WebConfig :=
  Config AdapterOperation WebCall WebCall.Answer String Unit ClientState

/-- The configurations that calls over HTTP lead to, from empty maps. -/
abbrev Reached (k : WebConfig) : Prop :=
  Moves Meaning (fun operation => overHttp describe
    (AdapterOperation.program parseRfc3339 hmac config operation)) (idle .empty) k

variable {describe parseRfc3339 hmac config} {k : ClientTrust.TrustConfig}

abbrev FreelyReached (parseRfc3339 : String → Option ℤ) (hmac : Hmac) (config : LdpAdapterConfig)
    (k : ClientTrust.TrustConfig) : Prop :=
  Moves Free (AdapterOperation.program parseRfc3339 hmac config) (idle .empty) k

/-- Some call could open a session at the URL. -/
def Opened (operations : List AdapterOperation) (url : String) : Prop :=
  ∃ operation ∈ operations, Opens url operation

/-- Sessions are cached, and listed, only where some call could open one. -/
structure Kept (k : ClientTrust.TrustConfig) : Prop where
  cached : ∀ url, (k.state.sessions.lookup url).isSome = true → Opened (k.calls.map Prod.fst) url
  listed : ∀ x ∈ k.log, AdapterListed (Opened (k.calls.map Prod.fst)) x.event.1 x.event.2

theorem operations_set {calls : List (AdapterOperation × ClientTrust.AdapterProgram Unit)} {i : ℕ}
    {operation : AdapterOperation} {p p' : ClientTrust.AdapterProgram Unit}
    (hi : calls[i]? = some (operation, p)) :
    (calls.set i (operation, p')).map Prod.fst = calls.map Prod.fst := by
  rw [List.map_set, set_eq_of_getElem?]
  rw [List.getElem?_map, hi]
  rfl

/-- The listed URLs are those of the cached sessions. -/
theorem listed_of_cached {P : String → Prop} {q : AdapterCall} {s t : ClientState} {a : q.Answer}
    (hm : Free q s a t) (h : ∀ url, (s.sessions.lookup url).isSome = true → P url) :
    AdapterListed P q a := by
  cases q with
  | fetchIdentityCard url => trivial
  | client q =>
      cases q with
      | sessionUrls =>
          intro url hurl
          apply h url
          rw [AList.lookup_isSome]
          exact AList.mem_keys.mpr (hm.1.mem_iff.mp hurl)
      | _ => trivial

theorem kept_of_reached (h : FreelyReached parseRfc3339 hmac config k) : Kept k := by
  induction h with
  | refl =>
      refine ⟨?_, by simp [idle]⟩
      intro url hl
      cases hl
  | @tail k₁ k₂ hmoves hmove ih =>
      cases hmove with
      | start operation =>
          have hmore : ∀ url, Opened (k₁.calls.map Prod.fst) url →
              Opened ((k₁.calls ++ [(operation,
                AdapterOperation.program parseRfc3339 hmac config operation)]).map Prod.fst)
                url := by
            intro url hopened
            obtain ⟨opened, hmem, hopens⟩ := hopened
            rw [List.map_append]
            exact ⟨opened, List.mem_append_left _ hmem, hopens⟩
          refine ⟨fun url hl => hmore url (ih.cached url hl), ?_⟩
          intro x hx
          have hlisted := ih.listed x hx
          obtain ⟨i, s, q, a⟩ := x
          cases q with
          | fetchIdentityCard url => trivial
          | client q =>
              cases q with
              | sessionUrls => exact fun url hurl => hmore url (hlisted url hurl)
              | _ => trivial
      | @act i operation q next a t hi hm =>
          have hsame : (k₁.calls.set i (operation, next a)).map Prod.fst =
              k₁.calls.map Prod.fst := operations_set hi
          have hasked : ClientTrust.AdapterConfined (fun url => Opens url operation) q :=
            ((Moves.follows hmoves).along i _ _ hi).uses_rest
              (ClientTrust.program_confined operation) |>.1
          constructor
          · intro url hl
            show Opened ((k₁.calls.set i (operation, next a)).map Prod.fst) url
            rw [hsame]
            cases q with
            | fetchIdentityCard u =>
                rw [show t = k₁.state from hm] at hl
                exact ih.cached url hl
            | client q =>
                obtain ⟨session, hnew⟩ := Option.isSome_iff_exists.mp hl
                rcases held_before hm hnew with ⟨held, hbefore, _⟩ | rfl
                · exact ih.cached url (Option.isSome_iff_exists.mpr ⟨held, hbefore⟩)
                · exact ⟨operation, List.mem_map_of_mem (List.mem_of_getElem? hi), hasked⟩
          · intro x hx
            show AdapterListed (Opened ((k₁.calls.set i (operation, next a)).map Prod.fst)) _ _
            rw [hsame]
            rcases List.mem_append.mp hx with hx | hx
            · exact ih.listed x hx
            · rw [List.mem_singleton.mp hx]
              exact listed_of_cached hm ih.cached

/-- Every question is asked by an operation that may ask it. -/
theorem entry_aims (h : FreelyReached parseRfc3339 hmac config k)
    {x : Entry AdapterCall AdapterCall.Answer ClientState} (hx : x ∈ k.log) :
    ∃ operation p, k.calls[x.caller]? = some (operation, p) ∧
      AdapterAims (Opened (k.calls.map Prod.fst)) operation x.event.1 := by
  have hlt := (Moves.follows h).caller x hx
  have hcall := List.getElem?_eq_getElem hlt
  refine ⟨_, _, hcall, ?_⟩
  apply ((Moves.follows h).along x.caller _ _ hcall).uses_allowed (program_aims _) ?_ x.event
    (mem_traceOf.mpr ⟨x, hx, rfl, rfl⟩)
  intro ev hev
  obtain ⟨y, hy, _, rfl⟩ := mem_traceOf.mp hev
  exact (kept_of_reached h).listed y hy

/-- Over HTTP nothing happens that the servers' answers would not allow. -/
theorem free_of_meaning (q : AdapterCall) (s : ClientState) (a : (onWire q).Answer)
    (t : ClientState) (h : Meaning (onWire q) s a t) : Free q s (offWire describe q a) t := by
  cases q with
  | fetchIdentityCard url => exact h
  | client q =>
      cases q with
      | _ => exact h

/-- Every request goes to an endpoint of the URL that its call was given or, when all
sessions are closed, of one where some call could open a session; cards are fetched by
discoveries only. -/
theorem requests_named {k : WebConfig} (h : Reached describe parseRfc3339 hmac config k)
    {x : Entry WebCall WebCall.Answer ClientState} (hx : x ∈ k.log) {q : HttpCall}
    (hq : x.event.1 = .http q) :
    ∃ operation p url, k.calls[x.caller]? = some (operation, p) ∧
      Reaches (Opened (k.calls.map Prod.fst)) operation url ∧
      ((∃ message : MessageTypes.LdpEnvelope,
          q = .post (endpointAt url "/ldp/messages") message.toValue) ∨
        (operation = .discover url ∧ q = .get (endpointAt url "/ldp/identity"))) := by
  obtain ⟨k₀, hreached, hmirrors⟩ := Moves.mirrored free_of_meaning h
  obtain ⟨y, hy, hmatches⟩ := hmirrors.entry hx
  obtain ⟨operation, p, hcall, haims⟩ := entry_aims hreached hy
  have hoperations : k.calls.map Prod.fst = k₀.calls.map Prod.fst := by
    rw [hmirrors.calls, List.map_map]
    rfl
  obtain ⟨question, a, hx', hy'⟩ := hmatches.event
  rw [hy'] at haims
  rw [hx'] at hq
  rw [hoperations]
  refine ⟨operation, translate onWire (offWire describe) id p, ?_⟩
  have hfound : k.calls[x.caller]? =
      some (operation, translate onWire (offWire describe) id p) := by
    rw [hmirrors.calls, List.getElem?_map, hmatches.caller, hcall]
    rfl
  cases question with
  | fetchIdentityCard url =>
      cases hq
      have hdiscovers : operation = .discover url := haims
      refine ⟨url, hfound, .named ?_, .inr ⟨hdiscovers, rfl⟩⟩
      rw [hdiscovers]
      rfl
  | client question =>
      cases question with
      | sendMessage url message =>
          cases hq
          exact ⟨url, hfound, haims, .inl ⟨message, rfl⟩⟩
      | _ => cases hq

end Runs

/-- No server can be reached. -/
def unreachable : (q : WebCall) → ClientState → q.Answer × ClientState
  | .own q, s => q.offline s
  | .http _, s => (.error "connection refused", s)

theorem unreachable_meaning (q : WebCall) (s : ClientState) :
    Meaning q s (unreachable q s).1 (unreachable q s).2 := by
  cases q with
  | own q => exact q.offline_meaning s
  | http q => rfl

/-- A URL may end in slashes. -/
theorem requests_named_slashes : ∃ (k : WebConfig) (operation : AdapterOperation) (url : String),
    Reached (fun _ => "") (fun _ => none) submissionMac {} k ∧
      k.log.map (fun x => x.event.1) = [.http (.get "http://localhost:8090/ldp/identity")] ∧
      Reaches (Opened (k.calls.map Prod.fst)) operation url ∧
      endpointAt url "/ldp/identity" = "http://localhost:8090/ldp/identity" := by
  let run : AdapterOperation → WebProgram Unit := fun operation => overHttp (fun _ => "")
    (AdapterOperation.program (fun _ => none) submissionMac {} operation)
  have hrun : Run Meaning Quiet (run (.discover "http://localhost:8090//")) .empty
      [⟨.http (.get "http://localhost:8090/ldp/identity"), .error "connection refused"⟩] .empty
      (.error "Failed to fetch identity card: connection refused") :=
    exec_run unreachable unreachable_meaning _ _
  obtain ⟨steps, hmoves, _, hevents⟩ := Moves.call (idle ClientState.empty) hrun
  obtain ⟨x, rest, hsteps⟩ : ∃ x rest, steps = x :: rest := by
    cases steps with
    | nil => cases hevents
    | cons x rest => exact ⟨x, rest, rfl⟩
  rw [hsteps] at hevents
  obtain ⟨hevent, hrest⟩ := List.cons.inj hevents
  have hmem : x ∈ ([] : List (Entry WebCall WebCall.Answer ClientState)) ++ steps := by
    rw [hsteps]
    exact List.mem_cons_self
  obtain ⟨operation, _, url, _, hreaches, hendpoint⟩ :=
    requests_named (q := .get "http://localhost:8090/ldp/identity") hmoves hmem (by rw [hevent])
  refine ⟨_, operation, url, hmoves, ?_, hreaches, ?_⟩
  · rw [hsteps]
    simp [idle, hevent, List.map_eq_nil_iff.mp hrest]
  · rcases hendpoint with ⟨message, hpost⟩ | ⟨_, hget⟩
    · cases hpost
    · exact (HttpCall.get.inj hget).symm

end LdpProtocol.HttpRequests
