import LdpProtocol.PythonDelivery
import LdpProtocol.RouterTable

/-!
# Routed tasks

Some URLs are those of Python delegates that the router's client trusts and that
trust it, with its secret; what is at any other URL is free. Between the router and
these delegates nothing is lost. Calls of the router overlap in any way. Then an
entry at such a URL is what the delegate there advertised, none that was to be
discovered is missing, and a routed task is performed by the delegate that was
chosen.
-/
namespace LdpProtocol.RoutedDelivery
open InteractivePrograms InterferedRuns ConcurrentCalls MonitoredCalls TranslatedPrograms
open InteractivePrograms.Program (call_bind pure_eq pure_bind_eq throw_bind uses_pure)
open JsonValues PythonMessages PythonSigning PythonIdentity
open EnvelopeSigning (Hmac)
open PythonClient PythonTasks PythonSubmissions PythonDelivery PythonRouter RouterTable
open InsertionOrderedMaps (OrderedMap)

/-- A delegate and what its task handler may do. -/
structure Host where
  delegate : PythonDelegate.LdpDelegate
  handles : TaskHandler

/-- The delegates by their URLs. -/
abbrev Hosts := String → Option Host

section
variable (display : Value → String) (hmac : Hmac) (hosts : Hosts)

/-- The card is kept under its URL, and is what the delegate there advertised. -/
structure Honest (url : String) (card : LdpIdentityCard) : Prop where
  endpoint : card.endpoint = url
  advertised : ∀ host, hosts url = some host →
    ∃ registered, card = { host.delegate.advertisedIdentity registered with endpoint := url }

def HonestTable (table : Delegates) : Prop :=
  ∀ url card, table.lookup url = some card → Honest hosts url card

/-- The hosted delegates are at their URLs, and nothing on the way is lost. -/
def RouterLinked : Event RouterCall RouterCall.Answer → Prop
  | ⟨.task q, a⟩ => ∀ url host, hosts url = some host →
      TaskLinked (delegatePeer display hmac host.delegate host.handles) url ⟨q, a⟩
  | _ => True

/-- The router's calls among these delegates. -/
def Meaning : InterferedRuns.Meaning RouterCall RouterCall.Answer RouterState :=
  fun q s a t => RouterCall.Meaning q s a t ∧ RouterLinked display hmac hosts ⟨q, a⟩

abbrev RouterConfig :=
  Config RouterOperation RouterCall RouterCall.Answer RoutingFailure RouterReturned RouterState

/-- The configurations that calls lead to, from an empty table. -/
abbrev Reached (fromIsoFormat : String → Option Deadline) (router : LdpRouter) (s₀ : ClientState)
    (k : RouterConfig) : Prop :=
  Moves (Meaning display hmac hosts) (RouterOperation.program fromIsoFormat hmac router)
    (idle ⟨s₀, .empty⟩) k

/-! ## The table -/

/-- A call puts honest cards into the table, and is watched for the URLs it has put. -/
def tableMonitor : Monitor RouterCall RouterCall.Answer (List String) where
  after put
    | ⟨.setDelegate url _, _⟩ => put ++ [url]
    | _ => put
  allows _
    | ⟨.setDelegate url card, _⟩ => Honest hosts url card
    | _ => True
  expects := RouterLinked display hmac hosts

end

section Table
variable {display : Value → String} {hmac : Hmac} {hosts : Hosts} {router : LdpRouter}
  {fromIsoFormat : String → Option Deadline} {url : String}

/-- The delegates are trusted, and their cards can be read. -/
abbrev AllTrusting (router : LdpRouter) (hosts : Hosts) : Prop :=
  ∀ url host, hosts url = some host → Trusting router.client host.delegate

/-- What is read of a hosted delegate's answer is what it advertised. -/
theorem gives_advertised (htrust : AllTrusting router hosts) {host : Host}
    (hhost : hosts url = some host) {answer : Except String Value}
    (hlinked : RouterLinked display hmac hosts ⟨.task (.client (.getIdentity url)), answer⟩) :
    ∃ registered, Gives router.client (url, answer)
      (host.delegate.advertisedIdentity registered) := by
  obtain ⟨registered, rfl⟩ := hlinked url host hhost rfl
  have h := htrust url host hhost
  have hread := CardExchange.card_kept (host.delegate.advertisedIdentity registered)
  have hdomain : (host.delegate.advertisedIdentity registered).trustDomain =
      host.delegate.identity.trustDomain := rfl
  rw [hdomain, h.named] at hread
  exact ⟨registered, _, rfl, hread, fun _ => h.trusts.1⟩

theorem honest_of_gives (htrust : AllTrusting router hosts) {answer : Except String Value}
    (hlinked : RouterLinked display hmac hosts ⟨.task (.client (.getIdentity url)), answer⟩)
    {card : LdpIdentityCard} (hgives : Gives router.client (url, answer) card) :
    Honest hosts url { card with endpoint := url } := by
  refine ⟨rfl, ?_⟩
  intro host hhost
  obtain ⟨registered, hadvertised⟩ := gives_advertised htrust hhost hlinked
  exact ⟨registered, by rw [hgives.unique hadvertised]⟩

/-- Nothing that was put is taken back, and each URL with a delegate is put. -/
structure Puts (hosts : Hosts) (urls put put' : List String) : Prop where
  kept : ∀ url ∈ put, url ∈ put'
  found : ∀ url ∈ urls, ∀ host, hosts url = some host → url ∈ put'

theorem Puts.cons {urls put put₁ put₂ : List String} (first : Puts hosts [url] put put₁)
    (rest : Puts hosts urls put₁ put₂) : Puts hosts (url :: urls) put put₂ := by
  refine ⟨fun other h => rest.kept other (first.kept other h), ?_⟩
  intro other hother host hhost
  rcases List.mem_cons.mp hother with rfl | hother
  · exact rest.kept _ (first.found _ (List.mem_singleton_self _) host hhost)
  · exact rest.found other hother host hhost

/-- One pass of the loop puts an honest card or none, and one if a delegate is hosted there. -/
theorem discoverDelegate_obeys (htrust : AllTrusting router hosts) (put : List String) :
    (tableMonitor display hmac hosts).Obeys (router.discoverDelegate url) put fun put' r =>
      ∃ found, r = .ok found ∧ Puts hosts [url] put put' := by
  intro answer hanswer
  refine ⟨trivial, ?_⟩
  show (tableMonitor display hmac hosts).Obeys
    ((submitted (lifted (readCard router.client answer))).attempt >>=
      LdpRouter.recordDelegate url) put _
  rcases readCard_cases router.client url answer with ⟨card, hgives, hread⟩ | ⟨hno, error, hread⟩
  · rw [hread]
    intro _ _
    refine ⟨honest_of_gives htrust hanswer hgives, _, rfl, ?_, ?_⟩
    · exact fun other h => List.mem_append_left [url] h
    · exact fun other h host _ => List.mem_append_right put h
  · rw [hread]
    refine ⟨_, rfl, fun _ h => h, ?_⟩
    intro other hother host hhost
    rw [List.mem_singleton.mp hother] at hhost
    obtain ⟨registered, hgives⟩ := gives_advertised htrust hhost hanswer
    exact (hno _ hgives).elim

theorem discoverDelegates_obeys (htrust : AllTrusting router hosts) (urls put : List String) :
    (tableMonitor display hmac hosts).Obeys (router.discoverDelegates urls) put fun put' r =>
      ∃ discovered, r = .ok discovered ∧ Puts hosts urls put put' := by
  induction urls generalizing put with
  | nil => exact ⟨[], rfl, fun _ h => h, by simp⟩
  | cons url urls ih =>
      unfold LdpRouter.discoverDelegates
      apply (discoverDelegate_obeys htrust put).bind_ok
      intro put₁ found hfirst
      apply (ih put₁).bind_ok
      intro put₂ discovered hrest
      exact ⟨_, rfl, hfirst.cons hrest⟩

variable {skill : String} {inputData : Value} {strategy : RoutingStrategy}
  {trustDomain : Option String}

theorem submitTo_uses (best : LdpIdentityCard) :
    (router.submitTo fromIsoFormat hmac skill inputData strategy best).Uses (fun _ _ => True)
      fun q => ¬ Assigns q := by
  apply (submitTo_aims best).mono
  intro q hq hassigns
  cases q with
  | setDelegate => exact hq
  | _ => exact hassigns

theorem routeAndSubmit_uses :
    (router.routeAndSubmit fromIsoFormat hmac skill inputData strategy trustDomain).Uses
      (fun _ _ => True) fun q => ¬ Assigns q := by
  unfold LdpRouter.routeAndSubmit
  simp only [call_bind]
  refine ⟨id, ?_⟩
  intro table _
  dsimp only
  cases select table skill strategy trustDomain with
  | error e => trivial
  | ok choice =>
      cases choice with
      | none => trivial
      | some best => exact submitTo_uses best

theorem operation_obeys (htrust : AllTrusting router hosts) (op : RouterOperation) :
    (tableMonitor display hmac hosts).Obeys (op.program fromIsoFormat hmac router) []
      fun _ _ => True := by
  cases op with
  | discoverDelegates urls =>
      unfold RouterOperation.program
      apply (discoverDelegates_obeys htrust urls []).bind_ok
      exact fun _ _ _ => trivial
  | routeAndSubmit skill inputData strategy trustDomain =>
      apply Monitor.Obeys.of_uses (P := fun q => ¬ Assigns q)
      · exact routeAndSubmit_uses.bind fun _ => uses_pure _
      · intro put q a hq
        cases q with
        | setDelegate => exact (hq trivial).elim
        | _ => trivial

end Table

/-! ## Runs -/

section Runs
variable {display : Value → String} {hmac : Hmac} {hosts : Hosts} {router : LdpRouter}
  {fromIsoFormat : String → Option Deadline} {s₀ : ClientState} {k k₁ : RouterConfig}
  {url : String} {host : Host}

/-- The table is honest, and what was put into it is there. -/
structure Accounted (hosts : Hosts)
    (log : List (Entry RouterCall RouterCall.Answer RouterState)) (table : Delegates) : Prop where
  honest : HonestTable hosts table
  put : ∀ x ∈ log, ∀ url card a, x.event = ⟨.setDelegate url card, a⟩ →
    ∃ held, table.lookup url = some held

theorem Accounted.step {log : List (Entry RouterCall RouterCall.Answer RouterState)}
    {s t : RouterState} {q : RouterCall} {a : q.Answer} {put : List String} {i : ℕ}
    (h : Accounted hosts log s.delegates) (hm : RouterCall.Meaning q s a t)
    (hallowed : (tableMonitor display hmac hosts).allows put ⟨q, a⟩) :
    Accounted hosts (log ++ [⟨i, s, ⟨q, a⟩⟩]) t.delegates := by
  cases q with
  | setDelegate url card =>
      have ht : t = { s with delegates := s.delegates.set url card } := hm
      rw [ht]
      constructor
      · intro other held hheld
        rw [OrderedMap.lookup_set] at hheld
        split at hheld
        · next hsame =>
            cases hheld
            rw [hsame]
            exact hallowed
        · exact h.honest other held hheld
      · intro x hx other put' b hput
        rw [OrderedMap.lookup_set]
        split
        · exact ⟨card, rfl⟩
        · next hother =>
            rcases List.mem_append.mp hx with hx | hx
            · exact h.put x hx other put' b hput
            · rw [List.mem_singleton.mp hx] at hput
              cases hput
              exact (hother rfl).elim
  | task q =>
      rw [hm.2]
      refine ⟨h.honest, ?_⟩
      intro x hx url card b hput
      rcases List.mem_append.mp hx with hx | hx
      · exact h.put x hx url card b hput
      · rw [List.mem_singleton.mp hx] at hput
        cases hput
  | delegates =>
      rw [hm.2]
      refine ⟨h.honest, ?_⟩
      intro x hx url card b hput
      rcases List.mem_append.mp hx with hx | hx
      · exact h.put x hx url card b hput
      · rw [List.mem_singleton.mp hx] at hput
        cases hput

theorem accounted_of_reached (htrust : AllTrusting router hosts)
    (h : Reached display hmac hosts fromIsoFormat router s₀ k) :
    Accounted hosts k.log k.state.delegates := by
  have hstart : Accounted hosts [] (.empty : Delegates) :=
    ⟨fun url card hcard => (by cases hcard), by simp⟩
  obtain ⟨_, haccounted, _⟩ := Moves.monitored
    (G := fun log s _ => Accounted hosts log s.delegates)
    (operation_obeys htrust) (fun q s a t hm => hm.2) hstart
    (fun log s put i q a t haccounted hm hallowed => haccounted.step hm.1 hallowed) h
  exact haccounted

theorem linked_of_reached (h : Reached display hmac hosts fromIsoFormat router s₀ k) (i : ℕ) :
    ∀ ev ∈ traceOf i k.log, RouterLinked display hmac hosts ev := by
  intro ev hev
  obtain ⟨x, hx, _, rfl⟩ := mem_traceOf.mp hev
  obtain ⟨_, hm⟩ := h.meant x hx
  exact hm.2

/-- The monitor has seen the entries it says were put. -/
theorem mem_puts {tr : List (Event RouterCall RouterCall.Answer)} {put : List String}
    (h : url ∈ tr.foldl (tableMonitor display hmac hosts).after put) :
    url ∈ put ∨ ∃ card a, ⟨.setDelegate url card, a⟩ ∈ tr := by
  induction tr generalizing put with
  | nil => exact .inl h
  | cons ev tr ih =>
      rcases ih h with hput | ⟨card, a, hmem⟩
      · obtain ⟨q, a⟩ := ev
        cases q with
        | setDelegate other card =>
            rcases List.mem_append.mp hput with hput | hput
            · exact .inl hput
            · rw [List.mem_singleton.mp hput]
              exact .inr ⟨card, a, List.mem_cons_self⟩
        | task q => exact .inl hput
        | delegates => exact .inl hput
      · exact .inr ⟨card, a, List.mem_cons_of_mem _ hmem⟩

/-- A finished discovery has put an entry for every URL with a delegate. -/
theorem discovered_put (htrust : AllTrusting router hosts)
    (h : Reached display hmac hosts fromIsoFormat router s₀ k) {j : ℕ} {urls : List String}
    {r : Except RoutingFailure RouterReturned}
    (hcall : k.calls[j]? = some (.discoverDelegates urls, done r)) (hurl : url ∈ urls)
    (hhost : hosts url = some host) :
    ∃ x ∈ k.log, ∃ card a, x.event = ⟨.setDelegate url card, a⟩ := by
  obtain ⟨_, halong, _⟩ := (h.follows.along j _ _ hcall).of_bind_map
  obtain ⟨_, _, hputs⟩ := (discoverDelegates_obeys htrust urls []).along halong
    (linked_of_reached h j)
  rcases mem_puts (hputs.found url hurl host hhost) with hnone | ⟨card, a, hmem⟩
  · cases hnone
  · obtain ⟨x, hx, _, hevent⟩ := mem_traceOf.mp hmem
    exact ⟨x, hx, card, a, hevent⟩

/-! ## Routed tasks -/

/-- The router's submissions are its client's. -/
def countRouted (sent : List (String × Value)) : Event RouterCall RouterCall.Answer →
    List (String × Value)
  | ⟨.task q, a⟩ => countTask sent ⟨q, a⟩
  | _ => sent

def routeMonitor (display : Value → String) (hmac : Hmac) (hosts : Hosts) :
    Monitor RouterCall RouterCall.Answer (List (String × Value)) where
  after := countRouted
  allows _ _ := True
  expects := RouterLinked display hmac hosts

def routedSubmissionsOf (i : ℕ) (log : List (Entry RouterCall RouterCall.Answer RouterState)) :
    List (String × Value) := (traceOf i log).foldl countRouted []

def routedBy (strategy : RoutingStrategy) (best : LdpIdentityCard) (result : TaskReport) : Routed :=
  ⟨result, best.delegateId, best.name, best.modelFamily, best.endpoint, strategy.value⟩

variable {skill : String} {inputData : Value} {strategy : RoutingStrategy}
  {trustDomain : Option String}

theorem submitted_obeys (htrust : Trusting router.client host.delegate)
    (hhost : hosts url = some host) (task : TaskArguments) :
    (routeMonitor display hmac hosts).Obeys
      (submitted (submitTask fromIsoFormat hmac router.client url task)) []
      fun sent r => ∃ report,
        Delivered fromIsoFormat host.delegate host.handles url task sent report ∧
          r = report.mapError RoutingFailure.task := by
  apply Monitor.Obeys.translate (m := taskMonitor
    (delegatePeer display hmac host.delegate host.handles) url)
  · exact fun q a ha => ha url host hhost
  · exact fun _ _ _ _ => trivial
  · exact fun _ _ _ => rfl
  · exact (submitTask_obeys (delegate_welcomes htrust)
      (delegate_performs htrust.secret task)).imp fun _ _ => delivered_of_submitted

/-- A task that is routed to a delegate is delivered to it. -/
theorem submitTo_delivers (htrust : Trusting router.client host.delegate) {best : LdpIdentityCard}
    (hhost : hosts best.endpoint = some host) {tr : List (Event RouterCall RouterCall.Answer)}
    {r : Except RoutingFailure Routed}
    (h : Along (router.submitTo fromIsoFormat hmac skill inputData strategy best) tr (done r))
    (hlinked : ∀ ev ∈ tr, RouterLinked display hmac hosts ev) :
    ∃ report, Delivered fromIsoFormat host.delegate host.handles best.endpoint
        { skill, inputData } (tr.foldl countRouted []) report ∧
      r = (report.mapError .task).map (routedBy strategy best) := by
  obtain ⟨_, halong, rfl⟩ := h.of_bind_map
  obtain ⟨report, hdelivered, rfl⟩ :=
    (submitted_obeys htrust hhost { skill, inputData }).along halong hlinked
  exact ⟨report, hdelivered, rfl⟩

/-- What a routed task came to, by the table it was routed with. -/
inductive Routes (fromIsoFormat : String → Option Deadline) (hosts : Hosts) (skill : String)
    (inputData : Value) (strategy : RoutingStrategy) (trustDomain : Option String)
    (table : Delegates) (submissions : List (String × Value)) : Except RoutingFailure Routed → Prop
  | unsupported : select table skill strategy trustDomain = .ok none → submissions = [] →
      Routes fromIsoFormat hosts skill inputData strategy trustDomain table submissions
        (.error (LdpRouter.noDelegate skill strategy trustDomain))
  | undefined {e : ExactFloats.ZeroDivision} : select table skill strategy trustDomain = .error e →
      submissions = [] →
      Routes fromIsoFormat hosts skill inputData strategy trustDomain table submissions
        (.error .zeroDivision)
  | routed {best : LdpIdentityCard} {r : Except RoutingFailure Routed} :
      select table skill strategy trustDomain = .ok (some best) →
      (∀ host, hosts best.endpoint = some host → ∃ report,
        Delivered fromIsoFormat host.delegate host.handles best.endpoint { skill, inputData }
          submissions report ∧ r = (report.mapError .task).map (routedBy strategy best)) →
      Routes fromIsoFormat hosts skill inputData strategy trustDomain table submissions r

/-- A routed task reads the table once, and goes by what it has read. -/
theorem routeAndSubmit_routes (htrust : AllTrusting router hosts)
    {tr : List (Event RouterCall RouterCall.Answer)} {r : Except RoutingFailure Routed}
    (h : Along (router.routeAndSubmit fromIsoFormat hmac skill inputData strategy trustDomain) tr
      (done r)) (hlinked : ∀ ev ∈ tr, RouterLinked display hmac hosts ev) :
    ∃ table, ⟨.delegates, table⟩ ∈ tr ∧ Routes fromIsoFormat hosts skill inputData strategy
      trustDomain table (tr.foldl countRouted []) r := by
  unfold LdpRouter.routeAndSubmit at h
  rw [call_bind] at h
  obtain ⟨table, rest, rfl, hrest⟩ := along_ask_done.mp h
  refine ⟨table, List.mem_cons_self, ?_⟩
  show Routes _ _ _ _ _ _ _ (rest.foldl countRouted []) r
  cases hselect : select table skill strategy trustDomain with
  | error e =>
      rw [hselect] at hrest
      obtain ⟨rfl, hr⟩ := along_throw_done.mp hrest
      cases hr
      exact .undefined hselect rfl
  | ok choice =>
      rw [hselect] at hrest
      cases choice with
      | none =>
          obtain ⟨rfl, hr⟩ := along_throw_done.mp hrest
          cases hr
          exact .unsupported hselect rfl
      | some best =>
          refine .routed hselect ?_
          intro host hhost
          exact submitTo_delivers (htrust best.endpoint host hhost) hhost hrest
            fun ev hev => hlinked ev (List.mem_cons_of_mem _ hev)

/-- The identity card and the entry made of it have the same skills. -/
theorem best_of_supports {registered : List PayloadModes.PayloadMode} {table : Delegates}
    (hheld : table.lookup url =
      some { host.delegate.advertisedIdentity registered with endpoint := url })
    (hs : strategy ≠ .balanced) (hd : trustDomain ≠ some "")
    (hsupports : RoutedSelection.Supports skill trustDomain host.delegate.identity) :
    ∃ best, select table skill strategy trustDomain = .ok (some best) ∧
      ¬ RoutedSelection.Better skill strategy host.delegate.identity best := by
  have hvalue := OrderedMap.mem_values_iff.mpr ⟨url, hheld⟩
  have hcandidate := (RoutedSelection.mem_candidates_iff hd).mpr ⟨hvalue, hsupports⟩
  obtain ⟨best, hselect, hbest⟩ :=
    RoutedSelection.select_firstBest hs hd (List.ne_nil_of_mem hcandidate)
  refine ⟨best, hselect, ?_⟩
  have hoptimal := hbest.optimal _ hvalue hsupports
  cases strategy with
  | balanced => exact (hs rfl).elim
  | _ => exact hoptimal

/-- A task that is routed after a discovery has ended goes by a table in which every
card is what the delegate at its URL advertised and none is missing. The delegate
that was chosen performs it, and none that was discovered would have been better. -/
theorem routed_delivered (htrust : AllTrusting router hosts)
    (h₁ : Reached display hmac hosts fromIsoFormat router s₀ k₁)
    (hto : Moves (Meaning display hmac hosts) (RouterOperation.program fromIsoFormat hmac router)
      k₁ k) {j : ℕ} {urls : List String} {r₁ : Except RoutingFailure RouterReturned}
    (hdiscovered : k₁.calls[j]? = some (.discoverDelegates urls, done r₁)) {i : ℕ}
    {r : Except RoutingFailure RouterReturned}
    (hcall : k.calls[i]? =
      some (.routeAndSubmit skill inputData strategy trustDomain, done r))
    (hlater : k₁.calls.length ≤ i) :
    ∃ table answer, r = answer.map .routed ∧ HonestTable hosts table ∧
      Routes fromIsoFormat hosts skill inputData strategy trustDomain table
        (routedSubmissionsOf i k.log) answer ∧
      ∀ url ∈ urls, ∀ host, hosts url = some host →
        (∃ registered, table.lookup url =
          some { host.delegate.advertisedIdentity registered with endpoint := url }) ∧
        (strategy ≠ .balanced → trustDomain ≠ some "" →
          RoutedSelection.Supports skill trustDomain host.delegate.identity →
          ∃ best, select table skill strategy trustDomain = .ok (some best) ∧
            ¬ RoutedSelection.Better skill strategy host.delegate.identity best) := by
  have h : Reached display hmac hosts fromIsoFormat router s₀ k := h₁.trans hto
  obtain ⟨answer, halong, rfl⟩ := (h.follows.along i _ _ hcall).of_bind_map
  obtain ⟨table, hread, hroutes⟩ := routeAndSubmit_routes htrust halong (linked_of_reached h i)
  obtain ⟨y, hy, hcaller, hevent⟩ := mem_traceOf.mp hread
  obtain ⟨k₂, h₂, _, hlog, hstate⟩ := Moves.moment h₁ hto hy (hcaller ▸ hlater)
  have hbefore : table = k₂.state.delegates := by
    obtain ⟨_, hm⟩ := h.meant y hy
    rw [hevent] at hm
    rw [hstate]
    exact hm.1.1
  have haccounted := accounted_of_reached htrust h₂
  rw [← hbefore] at haccounted
  refine ⟨table, answer, rfl, haccounted.honest, hroutes, ?_⟩
  intro url hurl host hhost
  obtain ⟨x, hx, card, a, hput⟩ := discovered_put htrust h₁ hdiscovered hurl hhost
  obtain ⟨held, hheld⟩ := haccounted.put x (hlog hx) url card a hput
  obtain ⟨registered, rfl⟩ := (haccounted.honest url held hheld).advertised host hhost
  exact ⟨⟨registered, hheld⟩, best_of_supports hheld⟩

end Runs

/-- The router's surroundings when one delegate is all there is. -/
def hosting (serve : Value → Except String Value) (card : Value) :
    (q : RouterCall) → RouterState → q.Answer × RouterState
  | .task q, s =>
      ((peered serve card LinkedDelegate.defaults q s.client).1,
        { s with client := (peered serve card LinkedDelegate.defaults q s.client).2 })
  | .delegates, s => (s.delegates, s)
  | .setDelegate url identity, s => ((), { s with delegates := s.delegates.set url identity })

/-- A delegate that can echo. -/
def echoing : PythonDelegate.LdpDelegate where
  identity := { PythonSessionCache.plainCard with capabilities := [{ name := "echo" }] }

def echoHosts : Hosts := fun url => if url = "u" then some ⟨echoing, echoes⟩ else none

theorem hosting_meaning (q : RouterCall) (s : RouterState) :
    Meaning (fun _ => "") (fun _ _ => .empty) echoHosts q s
      (hosting (fun document => (LinkedDelegate.serve (fun _ => "") (fun _ _ => .empty) echoing
        document []).1) (echoing.advertisedIdentity []).modelDump q s).1
      (hosting (fun document => (LinkedDelegate.serve (fun _ => "") (fun _ _ => .empty) echoing
        document []).1) (echoing.advertisedIdentity []).modelDump q s).2 := by
  cases q with
  | delegates => exact ⟨⟨rfl, rfl⟩, trivial⟩
  | setDelegate url identity => exact ⟨rfl, trivial⟩
  | task q =>
      refine ⟨⟨peered_meaning LinkedDelegate.defaults q s.client, rfl⟩, ?_⟩
      intro url host hhost
      unfold echoHosts at hhost
      split at hhost
      · cases hhost
        cases q with
        | client q =>
            cases q with
            | postMessage to_ document => exact fun _ => serve_handled document
            | getIdentity from_ => exact fun _ => ⟨[], rfl⟩
            | _ => trivial
        | _ => trivial
      · cases hhost

abbrev echoProgram : RouterOperation →
    Program RouterCall RouterCall.Answer RoutingFailure RouterReturned :=
  RouterOperation.program (fun _ => none) (fun _ _ => .empty) {}

theorem exists_run (op : RouterOperation) (s : RouterState) : ∃ tr t r,
    Run (Meaning (fun _ => "") (fun _ _ => .empty) echoHosts) Quiet (echoProgram op) s tr t r :=
  ⟨_, _, _, exec_run _ hosting_meaning _ _⟩

/-- The delegate is discovered, and a task for the skill it has is routed to it. -/
theorem routed_delivered_echo : ∃ k table answer best,
    Reached (fun _ => "") (fun _ _ => .empty) echoHosts (fun _ => none) {} ⟨∅, []⟩ k ∧
      k.calls[1]? = some (.routeAndSubmit "echo" .null .quality none,
        done (answer.map .routed)) ∧
      select table "echo" .quality none = .ok (some best) ∧
      Routes (fun _ => none) echoHosts "echo" .null .quality none table
        (routedSubmissionsOf 1 k.log) answer := by
  have htrust : AllTrusting {} echoHosts := by
    intro url host hhost
    unfold echoHosts at hhost
    split at hhost
    · cases hhost
      exact ⟨rfl, by decide, by decide⟩
    · cases hhost
  obtain ⟨_, t, r₁, hfirst⟩ := exists_run (.discoverDelegates ["u"]) ⟨⟨∅, []⟩, .empty⟩
  obtain ⟨_, _, r, hsecond⟩ := exists_run (.routeAndSubmit "echo" .null .quality none) t
  obtain ⟨steps, hreached, _⟩ := Moves.call (idle (⟨⟨∅, []⟩, .empty⟩ : RouterState)) hfirst
  obtain ⟨_, hto, _⟩ := Moves.call
    (⟨steps, t, [(.discoverDelegates ["u"], done r₁)]⟩ : RouterConfig) hsecond
  obtain ⟨table, answer, rfl, _, hroutes, hfound⟩ :=
    routed_delivered (j := 0) (i := 1) htrust hreached hto rfl rfl le_rfl
  obtain ⟨best, hselect, _⟩ := (hfound "u" (List.mem_singleton_self _) _ rfl).2 (by simp) (by simp)
    ⟨⟨{ name := "echo" }, List.mem_singleton_self _, rfl⟩, by simp⟩
  exact ⟨_, table, answer, best, hreached.trans hto, rfl, hselect, hroutes⟩

end LdpProtocol.RoutedDelivery
