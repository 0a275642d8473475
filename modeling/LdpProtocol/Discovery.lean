import LdpProtocol.CardExchange
import LdpProtocol.HttpClient
import LdpProtocol.PythonClient
import LdpProtocol.PythonDelegate

/-!
# Finding the card of a delegate

A client asks for a card at the address of the protocol, or at the well-known one
first and then there. The network loses any of the requests; what it does not lose
the delegate answers with its card. So a client finds the card exactly when one of
its requests got through, provided that its SDK reads the document and trusts the
domain, and all clients that find one find the same. The SDKs fall back differently:
Rust only after a request without success, Python after whatever it does not accept.
-/
namespace LdpProtocol.Discovery
open InteractivePrograms InterferedRuns ConcurrentCalls JsonValues HttpClient
open PayloadModes (PayloadMode)
open PythonSigning (Raised)
open PythonClient (LdpClient)
open PythonIdentity (LdpIdentityCard isBlank)
open PythonDelegate (LdpDelegate)
open ServerHandlers (LdpServer)
open CardExchange
open CrossWire (Readable modelValidate_card modelValidate_card_trustDomain)

/-! ## The Python client over HTTP -/

abbrev FetchProgram := Program HttpCall HttpCall.Answer Raised

/-- `raise_for_status()`, and then `json()`. -/
def jsonOf : Except String Response → Except String Value
  | .ok response => if response.isSuccess then response.json else .error response.status
  | .error e => .error e

section PythonClient
variable (client : LdpClient) (url : String)

/-- What `discover` makes of the answer to its request. -/
def accepted : Except String Value → Except Raised LdpIdentityCard
  | .error text => .error (.httpStatusError text)
  | .ok document =>
      match LdpIdentityCard.modelValidate document with
      | none => .error .validationError
      | some identity =>
          if client.enforceTrustDomains && !client.trustDomain.trusts identity.trustDomain.name then
            .error (client.distrust identity.trustDomain.name)
          else .ok identity

/-- It is what the discovery of a session makes of it. -/
theorem discover_eq : client.discover url =
    .ask (.getIdentity url) fun answer => Program.ofExcept (accepted client answer) := by
  change Program.ask _ _ = Program.ask _ _
  congr 1
  funext answer
  cases answer with
  | error text => rfl
  | ok document =>
      simp only [accepted]
      change (PythonClient.validated (LdpIdentityCard.modelValidate document)).bind _ = _
      cases LdpIdentityCard.modelValidate document with
      | none => rfl
      | some identity =>
          change client.trusted identity = Program.ofExcept (if _ then _ else _)
          unfold LdpClient.trusted
          split <;> rfl

def discover : FetchProgram LdpIdentityCard := do
  let answer ← Program.call (HttpCall.get (endpointAt url "/ldp/identity"))
  Program.ofExcept (accepted client (jsonOf answer))

/-- Any exception leads to the other endpoint, a domain that is not trusted as well. -/
def discoverWellknown : FetchProgram LdpIdentityCard := do
  let answer ← Program.call (HttpCall.get (endpointAt url "/.well-known/ldp-identity"))
  match accepted client (jsonOf answer) with
  | .ok identity => pure identity
  | .error _ => discover client url

end PythonClient

/-! ## Requests that get lost -/

/-- There is no response, or one without success. -/
def Lost (a : Except String Response) : Prop := ∀ response, a = .ok response →
  response.isSuccess = false

/-- The response is a success with this document. -/
structure Delivers (document : Value) (response : Response) : Prop where
  success : response.isSuccess = true
  json : response.json = .ok document

/-- The request is lost or answered with the document. -/
def Carried (document : Value) (a : Except String Response) : Prop :=
  Lost a ∨ ∃ response, a = .ok response ∧ Delivers document response

def GotThrough (tr : List (Event HttpCall HttpCall.Answer)) : Prop := ∃ ev ∈ tr, ¬ Lost ev.2

section Attempts
variable {ε α : Type} {document : Value} {P : α → Prop} {p : Program HttpCall HttpCall.Answer ε α}

/-- The result is what there is to find, if there is something. -/
def Settled (P : α → Prop) (r : Except ε α) : Prop :=
  ((∃ x, r = .ok x) ↔ ∃ x, P x) ∧ ∀ x, r = .ok x → P x

/-- However its requests are carried, the program ends with this. -/
def Settles (document : Value) (P : α → Prop) (p : Program HttpCall HttpCall.Answer ε α) : Prop :=
  ∀ tr r, Along p tr (done r) → (∀ ev ∈ tr, Carried document ev.2) → Settled P r

/-- It finds what there is exactly when a request got through. -/
def Finds (document : Value) (P : α → Prop) (p : Program HttpCall HttpCall.Answer ε α) : Prop :=
  ∀ tr r, Along p tr (done r) → (∀ ev ∈ tr, Carried document ev.2) →
    Settled (fun x => GotThrough tr ∧ P x) r

theorem settles_ofExcept {r : Except ε α} (h : ∀ x, r = .ok x ↔ P x) :
    Settles document P (Program.ofExcept r) := by
  intro tr r' halong _
  rw [(along_ofExcept_done.mp halong).2]
  exact ⟨exists_congr h, fun x hx => (h x).mp hx⟩

theorem finds_throw (e : ε) : Finds document P (.throw e) := by
  intro tr r halong _
  obtain ⟨htr, hr⟩ := along_throw_done.mp halong
  rw [htr, hr]
  simp [Settled, GotThrough]

/-- A search that goes on although there is nothing to find finds nothing. -/
theorem Finds.settles (h : Finds document P p) (hnone : ∀ x, ¬ P x) : Settles document P p := by
  intro tr r halong hcarried
  have hr := h tr r halong hcarried
  have hnever (x : α) (hx : r = .ok x) : False := hnone x (hr.2 x hx).2
  refine ⟨⟨?_, ?_⟩, fun x hx => (hnever x hx).elim⟩
  · rintro ⟨x, hx⟩
    exact (hnever x hx).elim
  · rintro ⟨x, hx⟩
    exact (hnone x hx).elim

/-- The requests of a program, whatever answers it gets. -/
def Asks (requests : List HttpCall) (p : Program HttpCall HttpCall.Answer ε α) : Prop :=
  ∀ tr r, Along p tr (done r) → tr.map Sigma.fst <+: requests

theorem asks_ofExcept (requests : List HttpCall) (r : Except ε α) :
    Asks requests (Program.ofExcept r) := by
  intro tr r' halong
  rw [(along_ofExcept_done.mp halong).1]
  exact ⟨requests, rfl⟩

theorem asks_ask {q : HttpCall} {next : HttpCall.Answer q → Program HttpCall HttpCall.Answer ε α}
    {requests : List HttpCall} (h : ∀ a, Asks requests (next a)) :
    Asks (q :: requests) (Program.call q >>= next) := by
  intro tr r halong
  obtain ⟨a, rest, htr, halong⟩ := along_call_done.mp halong
  rw [htr, List.map_cons, List.cons_prefix_cons]
  exact ⟨rfl, h a rest r halong⟩

/-- One request: the search goes on when it is lost, and is over when it is not. -/
theorem finds_ask {q : HttpCall} {next : HttpCall.Answer q → Program HttpCall HttpCall.Answer ε α}
    (hlost : ∀ a, Lost a → Finds document P (next a))
    (hgot : ∀ response, Delivers document response → Settles document P (next (.ok response))) :
    Finds document P (Program.call q >>= next) := by
  intro tr r halong hcarried
  obtain ⟨a, rest, htr, halong⟩ := along_call_done.mp halong
  rw [htr] at hcarried ⊢
  have hrest : ∀ ev ∈ rest, Carried document ev.2 := fun ev hev =>
    hcarried ev (List.mem_cons_of_mem _ hev)
  rcases hcarried ⟨q, a⟩ List.mem_cons_self with ha | ⟨response, ha, hdelivers⟩
  · have hsame : GotThrough (⟨q, a⟩ :: rest) ↔ GotThrough rest := by
      have hlost : Lost a := ha
      simp only [GotThrough, List.exists_mem_cons_iff, hlost, not_true_eq_false, false_or]
    simp only [hsame]
    exact hlost a ha rest r halong hrest
  · have ha : a = .ok response := ha
    have hthrough : GotThrough (⟨q, a⟩ :: rest) := by
      refine ⟨_, List.mem_cons_self, fun hlost => ?_⟩
      exact Bool.noConfusion (hdelivers.success.symm.trans (hlost response ha))
    simp only [hthrough, true_and]
    exact hgot response hdelivers rest r (ha ▸ halong) hrest

end Attempts

/-! ## The ways to ask -/

/-- At the address of the protocol, or at the well-known one first. -/
inductive Way where
  | identity
  | wellknown

def Way.requests (url : String) : Way → List HttpCall
  | .identity => [.get (endpointAt url "/ldp/identity")]
  | .wellknown => [.get (endpointAt url "/.well-known/ldp-identity"),
      .get (endpointAt url "/ldp/identity")]

section Rust
variable (describe : Value → String) (url : String) {document : Value}

/-- The Rust client reads this card of the document. -/
def RustReads (document : Value) (card : DelegateIdentity.LdpIdentityCard) : Prop :=
  DelegateIdentity.LdpIdentityCard.fromValue document = some card

def rustSearch : Way → HttpProgram DelegateIdentity.LdpIdentityCard
  | .identity => fetchIdentityCard describe url
  | .wellknown => fetchIdentityWellknown describe url

theorem rustSearch_asks (way : Way) : Asks (way.requests url) (rustSearch describe url way) := by
  cases way with
  | identity => exact asks_ask fun a => asks_ofExcept _ _
  | wellknown =>
      apply asks_ask
      intro a
      have hfallback : Asks (Way.identity.requests url) (fetchIdentityCard describe url) :=
        asks_ask fun a => asks_ofExcept _ _
      cases a with
      | error e => exact hfallback
      | ok response =>
          dsimp only
          split
          · exact asks_ofExcept _ _
          · exact hfallback

theorem jsonAs_eq_ok {α : Type} {read : Value → Option α} {response : Response} {x : α}
    (h : Delivers document response) :
    response.jsonAs describe read = .ok x ↔ read document = some x := by
  simp only [Response.jsonAs, h.json]
  cases read document <;> simp

theorem mapError_eq_ok {ε δ α : Type} {f : ε → δ} {r : Except ε α} {x : α} :
    r.mapError f = .ok x ↔ r = .ok x := by
  cases r <;> simp [Except.mapError]

theorem fetchIdentityCard_finds :
    Finds document (RustReads document) (fetchIdentityCard describe url) := by
  apply finds_ask
  · intro a hlost
    cases a with
    | error e => exact finds_throw _
    | ok response =>
        have hfailed : response.isSuccess = false := hlost response rfl
        simp only [received, hfailed, Bool.false_eq_true, if_false]
        exact finds_throw _
  · intro response hdelivers
    apply settles_ofExcept
    intro card
    simp only [received, if_pos hdelivers.success]
    rw [mapError_eq_ok, jsonAs_eq_ok describe hdelivers]
    rfl

theorem fetchIdentityWellknown_finds :
    Finds document (RustReads document) (fetchIdentityWellknown describe url) := by
  apply finds_ask
  · intro a hlost
    cases a with
    | error e => exact fetchIdentityCard_finds describe url
    | ok response =>
        have hfailed : response.isSuccess = false := hlost response rfl
        simp only [hfailed, Bool.false_eq_true, if_false]
        exact fetchIdentityCard_finds describe url
  · intro response hdelivers
    simp only [if_pos hdelivers.success]
    apply settles_ofExcept
    intro card
    rw [mapError_eq_ok, jsonAs_eq_ok describe hdelivers]
    rfl

theorem rustSearch_finds (way : Way) :
    Finds document (RustReads document) (rustSearch describe url way) := by
  cases way with
  | identity => exact fetchIdentityCard_finds describe url
  | wellknown => exact fetchIdentityWellknown_finds describe url

end Rust

section Python
variable (client : LdpClient) (url : String) {document : Value}

/-- The Python client reads this card of the document and trusts its domain. -/
structure PythonAccepts (document : Value) (identity : LdpIdentityCard) : Prop where
  reads : LdpIdentityCard.modelValidate document = some identity
  trusts : client.enforceTrustDomains = true →
    client.trustDomain.trusts identity.trustDomain.name = true

def pythonSearch : Way → FetchProgram LdpIdentityCard
  | .identity => discover client url
  | .wellknown => discoverWellknown client url

theorem pythonSearch_asks (way : Way) : Asks (way.requests url) (pythonSearch client url way) := by
  cases way with
  | identity => exact asks_ask fun a => asks_ofExcept _ _
  | wellknown =>
      apply asks_ask
      intro a
      cases accepted client (jsonOf a) with
      | ok identity => exact asks_ofExcept _ (.ok identity)
      | error e => exact asks_ask fun a => asks_ofExcept _ _

theorem accepted_eq_ok {identity : LdpIdentityCard} :
    accepted client (.ok document) = .ok identity ↔ PythonAccepts client document identity := by
  unfold accepted
  constructor
  · intro h
    cases hread : LdpIdentityCard.modelValidate document with
    | none => simp [hread] at h
    | some card =>
        simp only [hread] at h
        split at h
        · cases h
        · cases h
          exact ⟨hread, fun henforce => by simp_all⟩
  · intro h
    simp only [h.reads]
    rw [if_neg]
    intro hdistrust
    obtain ⟨henforce, hnot⟩ := Bool.and_eq_true_iff.mp hdistrust
    rw [h.trusts henforce] at hnot
    cases hnot

theorem accepted_lost {a : Except String Response} (h : Lost a) :
    ∃ e, accepted client (jsonOf a) = .error e := by
  cases a with
  | error e => exact ⟨_, rfl⟩
  | ok response =>
      have hfailed : response.isSuccess = false := h response rfl
      exact ⟨.httpStatusError response.status, by simp [jsonOf, hfailed, accepted]⟩

theorem jsonOf_delivers {response : Response} (h : Delivers document response) :
    jsonOf (.ok response) = .ok document := by
  simp only [jsonOf, if_pos h.success, h.json]

theorem discover_finds :
    Finds document (PythonAccepts client document) (discover client url) := by
  apply finds_ask
  · intro a hlost
    obtain ⟨e, he⟩ := accepted_lost client hlost
    rw [he]
    exact finds_throw e
  · intro response hdelivers
    apply settles_ofExcept
    intro identity
    rw [jsonOf_delivers hdelivers, accepted_eq_ok]

theorem discoverWellknown_finds :
    Finds document (PythonAccepts client document) (discoverWellknown client url) := by
  apply finds_ask
  · intro a hlost
    obtain ⟨e, he⟩ := accepted_lost client hlost
    rw [he]
    exact discover_finds client url
  · intro response hdelivers
    rw [jsonOf_delivers hdelivers]
    cases hresult : accepted client (.ok document) with
    | ok identity =>
        refine settles_ofExcept (r := .ok identity) fun x => ?_
        rw [← hresult, accepted_eq_ok]
    | error e =>
        -- The other address has the same document.
        apply (discover_finds client url).settles
        intro identity haccepts
        rw [(accepted_eq_ok client).mpr haccepts] at hresult
        cases hresult

theorem pythonSearch_finds (way : Way) :
    Finds document (PythonAccepts client document) (pythonSearch client url way) := by
  cases way with
  | identity => exact discover_finds client url
  | wellknown => exact discoverWellknown_finds client url

end Python

/-! ## Delegates -/

/-- A schema of `null` is written like an absent one. -/
theorem toValue_normalized (card : DelegateIdentity.LdpIdentityCard) :
    card.normalized.toValue = card.toValue := by
  have hschema (schema : Option Value) :
      Value.orNull id (DelegateIdentity.withoutNull schema) = Value.orNull id schema := by
    cases schema with
    | none => rfl
    | some v => cases v <;> rfl
  have hcapability (c : DelegateIdentity.LdpCapability) : c.normalized.toValue = c.toValue := by
    unfold DelegateIdentity.LdpCapability.toValue DelegateIdentity.LdpCapability.normalized
    rw [hschema, hschema]
  unfold DelegateIdentity.LdpIdentityCard.toValue DelegateIdentity.LdpIdentityCard.normalized
  rw [List.map_map]
  have hmap : DelegateIdentity.LdpCapability.toValue ∘ DelegateIdentity.LdpCapability.normalized =
      DelegateIdentity.LdpCapability.toValue := funext hcapability
  rw [hmap]

/-- A delegate of either SDK; a Python process has a codec for some modes. -/
inductive Delegate where
  | rust (srv : LdpServer)
  | python (d : LdpDelegate) (registered : List PayloadMode)

namespace Delegate

/-- The card it serves. -/
def document : Delegate → Value
  | .rust srv => srv.identity.toValue
  | .python d registered => (d.advertisedIdentity registered).modelDump

/-- The paths it serves it at. -/
def paths : Delegate → List String
  | .rust _ => ["/ldp/identity"]
  | .python _ _ => ["/.well-known/ldp-identity", "/ldp/identity"]

/-- The Rust SDK reads the card. -/
def FitsRust : Delegate → Prop
  | .rust _ => True
  | .python d registered => Fits (d.advertisedIdentity registered)

/-- The Python SDK reads the card. -/
def FitsPython : Delegate → Prop
  | .rust srv => Readable srv.identity
  | .python d _ => isBlank d.identity.trustDomain.name = false

def domain : Delegate → String
  | .rust srv => srv.identity.trustDomain.name
  | .python d _ => d.identity.trustDomain.name

variable {delegate : Delegate}

theorem rustReads_iff : (∃ card, RustReads delegate.document card) ↔ delegate.FitsRust := by
  cases delegate with
  | rust srv => exact iff_true_intro ⟨_, srv.identity.fromValue_toValue⟩
  | python d registered =>
      exact Option.isSome_iff_exists.symm.trans (fromValue_rustCard_isSome _)

/-- A card that the Rust client reads is written as it was served. -/
theorem toValue_of_reads {card : DelegateIdentity.LdpIdentityCard}
    (h : RustReads delegate.document card) : card.toValue = delegate.document := by
  cases delegate with
  | rust srv =>
      have hcard : srv.identity.normalized = card :=
        Option.some.inj (srv.identity.fromValue_toValue.symm.trans h)
      rw [← hcard]
      exact toValue_normalized srv.identity
  | python d registered => exact card_reread h

theorem pythonReads_iff :
    (∃ identity, LdpIdentityCard.modelValidate delegate.document = some identity) ↔
      delegate.FitsPython := by
  refine Option.isSome_iff_exists.symm.trans ?_
  cases delegate with
  | rust srv => exact modelValidate_card srv.identity
  | python d registered =>
      have hkept := card_kept (d.advertisedIdentity registered)
      unfold document FitsPython
      rw [hkept]
      change (if isBlank d.identity.trustDomain.name then none else some _).isSome = true ↔ _
      cases hblank : isBlank d.identity.trustDomain.name <;> simp [hblank]

theorem modelDump_of_reads {identity : LdpIdentityCard}
    (h : LdpIdentityCard.modelValidate delegate.document = some identity) :
    identity.modelDump = delegate.document ∧ identity.trustDomain.name = delegate.domain := by
  cases delegate with
  | rust srv => exact ⟨card_rewritten h, congrArg _ (modelValidate_card_trustDomain h)⟩
  | python d registered =>
      have hkept := (card_kept (d.advertisedIdentity registered)).symm.trans h
      split at hkept
      · cases hkept
      · cases hkept
        exact ⟨rfl, rfl⟩

/-- The client reads the card and trusts the domain on it. -/
structure Suits (delegate : Delegate) (client : LdpClient) : Prop where
  fits : delegate.FitsPython
  trusts : client.enforceTrustDomains = true →
    client.trustDomain.trusts delegate.domain = true

theorem pythonAccepts_iff {client : LdpClient} :
    (∃ identity, PythonAccepts client delegate.document identity) ↔ delegate.Suits client := by
  constructor
  · rintro ⟨identity, h⟩
    refine ⟨pythonReads_iff.mp ⟨identity, h.reads⟩, fun henforce => ?_⟩
    rw [← (modelDump_of_reads h.reads).2]
    exact h.trusts henforce
  · intro h
    obtain ⟨identity, hreads⟩ := pythonReads_iff.mpr h.fits
    refine ⟨identity, hreads, fun henforce => ?_⟩
    rw [(modelDump_of_reads hreads).2]
    exact h.trusts henforce

/-- A request is lost or answered with the card, at a path that has one. -/
def Serves (base : String) (delegate : Delegate) (ev : Event HttpCall HttpCall.Answer) : Prop :=
  Lost ev.2 ∨ ∃ path ∈ delegate.paths, ev.1 = .get (endpointAt base path) ∧
    ∃ response, ev.2 = .ok response ∧ Delivers delegate.document response

theorem Serves.carried {base : String} {ev : Event HttpCall HttpCall.Answer}
    (h : delegate.Serves base ev) : Carried delegate.document ev.2 := by
  rcases h with hlost | ⟨_, _, _, hdelivers⟩
  · exact .inl hlost
  · exact .inr hdelivers

end Delegate

/-- Clients of both SDKs look for the card of one delegate, each in either way. -/
theorem cards_discovered (delegate : Delegate) (base : String) (describe : Value → String)
    (client : LdpClient) {url url' : String} {way way' : Way}
    {tr tr' : List (Event HttpCall HttpCall.Answer)}
    {found : Except String DelegateIdentity.LdpIdentityCard}
    {found' : Except Raised LdpIdentityCard}
    (hrust : Along (rustSearch describe url way) tr (done found))
    (hserved : ∀ ev ∈ tr, delegate.Serves base ev)
    (hpython : Along (pythonSearch client url' way') tr' (done found'))
    (hserved' : ∀ ev ∈ tr', delegate.Serves base ev) :
    (tr.map Sigma.fst <+: way.requests url ∧ tr'.map Sigma.fst <+: way'.requests url') ∧
    ((∃ card, found = .ok card) ↔ GotThrough tr ∧ delegate.FitsRust) ∧
    ((∃ identity, found' = .ok identity) ↔ GotThrough tr' ∧ delegate.Suits client) ∧
    (∀ card, found = .ok card → card.toValue = delegate.document) ∧
    ∀ identity, found' = .ok identity → identity.modelDump = delegate.document := by
  have hrustResult := rustSearch_finds describe url way tr found hrust fun ev hev =>
    (hserved ev hev).carried
  have hpythonResult := pythonSearch_finds client url' way' tr' found' hpython fun ev hev =>
    (hserved' ev hev).carried
  refine ⟨⟨rustSearch_asks describe url way tr found hrust,
    pythonSearch_asks client url' way' tr' found' hpython⟩, ?_, ?_, ?_, ?_⟩
  · rw [hrustResult.1, exists_and_left, Delegate.rustReads_iff]
  · rw [hpythonResult.1, exists_and_left, Delegate.pythonAccepts_iff]
  · intro card hcard
    exact Delegate.toValue_of_reads (hrustResult.2 card hcard).2
  · intro identity hidentity
    exact (Delegate.modelDump_of_reads (hpythonResult.2 identity hidentity).2.reads).1

/-- The Rust client's first request is lost, and its URL ends in a slash. -/
theorem cards_discovered_echo : ∃ (tr tr' : List (Event HttpCall HttpCall.Answer))
    (card : DelegateIdentity.LdpIdentityCard) (identity : LdpIdentityCard),
    Along (rustSearch (fun _ => "invalid type") "http://b/" .wellknown) tr (done (.ok card)) ∧
    Along (pythonSearch { trustDomain := { name := "test-domain" } } "http://b" .identity) tr'
      (done (.ok identity)) ∧
    card.toValue = identity.modelDump := by
  let delegate : Delegate := .rust (LdpServer.echoServer "ldp:b" "B")
  let response : Response := ⟨true, "200 OK", none, .ok delegate.document⟩
  let answered : Event HttpCall HttpCall.Answer :=
    ⟨.get (endpointAt "http://b" "/ldp/identity"), .ok response⟩
  let lost : Event HttpCall HttpCall.Answer :=
    ⟨.get (endpointAt "http://b" "/.well-known/ldp-identity"), .error "connection reset"⟩
  have hrust : Along (rustSearch (fun _ => "invalid type") "http://b/" .wellknown) [lost, answered]
      (done (received (fun _ => "invalid type") identityWording
        DelegateIdentity.LdpIdentityCard.fromValue (.ok response))) := by
    have hurl : "http://b/" = "http://b" ++ "/" := by simp
    unfold rustSearch fetchIdentityWellknown fetchIdentityCard
    rw [hurl, endpointAt_slash, endpointAt_slash]
    apply along_call_done.mpr ⟨_, _, rfl, ?_⟩
    exact along_call_done.mpr ⟨_, _, rfl, along_ofExcept_done.mpr ⟨rfl, rfl⟩⟩
  have hpython : Along (pythonSearch { trustDomain := { name := "test-domain" } } "http://b"
      .identity) [answered] (done (accepted _ (jsonOf (.ok response)))) :=
    along_call_done.mpr ⟨_, _, rfl, along_ofExcept_done.mpr ⟨rfl, rfl⟩⟩
  have hlost : delegate.Serves "http://b" lost := .inl fun _ h => nomatch h
  have hanswered : delegate.Serves "http://b" answered :=
    .inr ⟨"/ldp/identity", List.mem_singleton_self _, rfl, response, rfl, rfl, rfl⟩
  obtain ⟨_, hfound, hfound', hsame, hsame'⟩ := cards_discovered delegate "http://b" _ _ hrust
    (by simp [hlost, hanswered]) hpython (by simp [hanswered])
  have hreadable : Readable (LdpServer.echoServer "ldp:b" "B").identity := by
    refine ⟨rfl, ?_⟩
    intro c hc
    rw [List.mem_singleton.mp hc]
    exact ⟨(fun _ h => nomatch h), (fun _ h => nomatch h)⟩
  have hthrough : ¬ Lost answered.2 := fun h => Bool.noConfusion (h response rfl)
  obtain ⟨card, hcard⟩ := hfound.mpr ⟨⟨answered, by simp, hthrough⟩, trivial⟩
  obtain ⟨identity, hidentity⟩ := hfound'.mpr ⟨⟨answered, by simp, hthrough⟩, hreadable,
    fun _ => DelegateIdentity.TrustDomain.trusts_self _⟩
  exact ⟨_, _, card, identity, hcard ▸ hrust, hidentity ▸ hpython,
    (hsame card hcard).trans (hsame' identity hidentity).symm⟩

end LdpProtocol.Discovery
