import LdpProtocol.PythonSessionCache
import LdpProtocol.RoutedSelection

/-!
# The router's table

Calls of the router, one after another, with peers that answer what they like.
The table is what the fetches of `discover_delegates` make of an empty one: an
entry is the last card that was read at its URL and passed the trust check, with
that URL as its endpoint. A task goes to the URL of the entry that is selected.
-/
namespace LdpProtocol.RouterTable
open InteractivePrograms InterferedRuns ConcurrentCalls TranslatedPrograms
open InteractivePrograms.Program (call_bind pure_eq pure_bind_eq throw_bind uses_pure uses_throw)
open JsonValues EnvelopeSigning PythonMessages PythonSigning PythonIdentity
open PythonClient PythonTasks PythonQuestions PythonRouter InsertionOrderedMaps
open LinkedPythonClient (Discovered validated_trusted)

abbrev RouterTrace := List (Event RouterCall RouterCall.Answer)

abbrev RouterRun {α : Type} (p : RouterProgram α) (s : RouterState) (tr : RouterTrace)
    (t : RouterState) (r : Except RoutingFailure α) : Prop :=
  Run RouterCall.Meaning Quiet p s tr t r

/-! ## Fetches and what they leave -/

/-- A request for a card and its answer. -/
abbrev Fetch := String × Except String Value

def fetchOf : Event RouterCall RouterCall.Answer → Option Fetch
  | ⟨.task (.client (.getIdentity url)), answer⟩ => some (url, answer)
  | _ => none

def fetches (tr : RouterTrace) : List Fetch := tr.filterMap fetchOf

section Table
variable (client : LdpClient)

/-- The card is in the answer and passes the trust check. -/
def Gives (x : Fetch) (card : LdpIdentityCard) : Prop :=
  ∃ document, x.2 = .ok document ∧ Discovered client document card

/-- The discovery at this URL was successful. -/
def Succeeds (url : String) (x : Fetch) : Prop := x.1 = url ∧ ∃ card, Gives client x card

/-- The last card successfully discovered at the URL. -/
def LastDiscovered (fetched : List Fetch) (url : String) (card : LdpIdentityCard) : Prop :=
  ∃ x, Latest (Succeeds client url) (Succeeds client url) fetched x ∧ Gives client x card

/-- What a fetch makes of the table. -/
inductive Recorded (table : Delegates) (x : Fetch) : Delegates → Prop
  | given {card : LdpIdentityCard} : Gives client x card →
      Recorded table x (table.set x.1 { card with endpoint := x.1 })
  | failed : (∀ card, ¬ Gives client x card) → Recorded table x table

/-- What a list of fetches makes of it. -/
inductive Replayed (start : Delegates) : List Fetch → Delegates → Prop
  | nil : Replayed start [] start
  | snoc {fetched : List Fetch} {x : Fetch} {table table' : Delegates} :
      Replayed start fetched table → Recorded client table x table' →
      Replayed start (fetched ++ [x]) table'

variable {client} {start table table' : Delegates} {fetched later : List Fetch} {url : String}
  {entry : LdpIdentityCard}

theorem Gives.unique {x : Fetch} {card card' : LdpIdentityCard} (h : Gives client x card)
    (h' : Gives client x card') : card = card' := by
  obtain ⟨document, hx, hread, _⟩ := h
  obtain ⟨document', hx', hread', _⟩ := h'
  cases hx.symm.trans hx'
  exact Option.some.inj (hread.symm.trans hread')

theorem Replayed.append (h : Replayed client start fetched table)
    (hlater : Replayed client table later table') :
    Replayed client start (fetched ++ later) table' := by
  induction hlater with
  | nil =>
      rw [List.append_nil]
      exact h
  | snoc _ hrecorded ih =>
      rw [← List.append_assoc]
      exact .snoc ih hrecorded

/-- An entry stays what it is until a discovery at its URL succeeds. -/
theorem Recorded.lookup_other {x : Fetch} (h : Recorded client table x table')
    (hx : ¬ Succeeds client url x) : table'.lookup url = table.lookup url := by
  cases h with
  | given hcard =>
      have hne : url ≠ x.1 := fun heq => hx ⟨heq.symm, _, hcard⟩
      rw [OrderedMap.lookup_set, if_neg hne]
  | failed => rfl

theorem Replayed.lookup_other (h : Replayed client start fetched table)
    (hnone : ∀ x ∈ fetched, ¬ Succeeds client url x) :
    table.lookup url = start.lookup url := by
  induction h with
  | nil => rfl
  | snoc _ hrecorded ih =>
      rw [hrecorded.lookup_other (hnone _ (by simp))]
      exact ih fun x hx => hnone x (List.mem_append_left _ hx)

theorem lastDiscovered_concat {x : Fetch} {card : LdpIdentityCard} :
    LastDiscovered client (fetched ++ [x]) url card ↔
      (x.1 = url ∧ Gives client x card) ∨
        (LastDiscovered client fetched url card ∧ ¬ Succeeds client url x) := by
  unfold LastDiscovered
  simp only [latest_concat]
  constructor
  · intro h
    obtain ⟨y, ⟨hsucceeds, rfl⟩ | ⟨hlatest, hno⟩, hgives⟩ := h
    · exact .inl ⟨hsucceeds.1, hgives⟩
    · exact .inr ⟨⟨y, hlatest, hgives⟩, hno⟩
  · intro h
    rcases h with ⟨hurl, hgives⟩ | ⟨⟨y, hlatest, hgives⟩, hno⟩
    · exact ⟨x, .inl ⟨⟨hurl, card, hgives⟩, rfl⟩, hgives⟩
    · exact ⟨y, .inr ⟨hlatest, hno⟩, hgives⟩

/-- Every entry is the last card discovered at its URL, and every such card is an
entry. -/
theorem Replayed.lookup_iff (h : Replayed client .empty fetched table) :
    table.lookup url = some entry ↔
      ∃ card, LastDiscovered client fetched url card ∧ entry = { card with endpoint := url } := by
  induction h with
  | nil =>
      refine iff_of_false (by simp) ?_
      intro hlast
      obtain ⟨_, ⟨x, hlatest, _⟩, _⟩ := hlast
      exact not_latest_nil hlatest
  | @snoc fetched x table table' _ hrecorded ih =>
      by_cases hx : Succeeds client url x
      · obtain ⟨hurl, card, hgives⟩ := hx
        cases hrecorded with
        | failed hno => exact (hno card hgives).elim
        | @given card' hgives' =>
            cases hgives.unique hgives'
            rw [hurl, OrderedMap.lookup_set_self]
            constructor
            · intro hentry
              exact ⟨card, lastDiscovered_concat.mpr (.inl ⟨hurl, hgives⟩),
                (Option.some.inj hentry).symm⟩
            · intro hlast
              obtain ⟨card', hlast, rfl⟩ := hlast
              rcases lastDiscovered_concat.mp hlast with ⟨_, hsame⟩ | ⟨_, hno⟩
              · rw [hgives.unique hsame]
              · exact (hno ⟨hurl, card, hgives⟩).elim
      · have hsame : ∀ card, LastDiscovered client (fetched ++ [x]) url card ↔
            LastDiscovered client fetched url card := by
          intro card
          rw [lastDiscovered_concat]
          constructor
          · intro h
            rcases h with ⟨hurl, hgives⟩ | ⟨hlast, _⟩
            · exact (hx ⟨hurl, card, hgives⟩).elim
            · exact hlast
          · exact fun hlast => .inr ⟨hlast, hx⟩
        simp only [hrecorded.lookup_other hx, ih, hsame]

end Table

/-! ## Calls -/

section Calls
variable {router : LdpRouter} {fromIsoFormat : String → Option Deadline} {hmac : Hmac}
  {url : String} {s t : RouterState} {tr : RouterTrace}

/-- What `discover` does with an answer. -/
def readCard (client : LdpClient) (answer : Except String Value) :
    ClientProgram LdpIdentityCard := do
  let document ← raiseForStatus answer
  let identity ← validated (LdpIdentityCard.modelValidate document)
  client.trusted identity

theorem readCard_cases (client : LdpClient) (url : String) (answer : Except String Value) :
    (∃ card, Gives client (url, answer) card ∧ readCard client answer = .pure card) ∨
    ((∀ card, ¬ Gives client (url, answer) card) ∧ ∃ error,
      readCard client answer = .throw error) := by
  unfold readCard
  cases answer with
  | error text =>
      refine .inr ⟨?_, _, rfl⟩
      intro card hgives
      obtain ⟨document, hanswer, _⟩ := hgives
      cases hanswer
  | ok document =>
      rw [raiseForStatus, pure_bind_eq]
      rcases validated_trusted client document with ⟨card, hcard, hread⟩ | ⟨hno, error, hread⟩
      · exact .inl ⟨card, ⟨document, rfl, hcard⟩, hread⟩
      · refine .inr ⟨?_, error, hread⟩
        intro card hgives
        obtain ⟨document', hanswer, hcard⟩ := hgives
        cases hanswer
        exact hno card hcard

/-- One pass of the loop is one fetch, and records what it gives. -/
theorem discoverDelegate_run {r : Except RoutingFailure (Option LdpIdentityCard)}
    (h : RouterRun (router.discoverDelegate url) s tr t r) :
    ∃ answer, fetches tr = [(url, answer)] ∧
      Recorded router.client s.delegates (url, answer) t.delegates ∧ ∃ found, r = .ok found := by
  obtain ⟨answer, u, rest, ⟨_, hu⟩, hread, htr⟩ := quiet_ask.mp h
  have hrest : RouterRun ((submitted (lifted (readCard router.client answer))).attempt >>=
    LdpRouter.recordDelegate url) u rest t r := hread
  refine ⟨answer, ?_⟩
  rw [htr, ← hu]
  rcases readCard_cases router.client url answer with ⟨card, hgives, hread⟩ | ⟨hno, error, hread⟩
  · rw [hread] at hrest
    obtain ⟨_, v, rest', hv, hrest', htr'⟩ := quiet_ask.mp hrest
    obtain ⟨htv, hnil, hr⟩ := quiet_pure.mp hrest'
    rw [htr', hnil, htv, show v = _ from hv]
    exact ⟨rfl, .given hgives, _, hr⟩
  · rw [hread] at hrest
    obtain ⟨htu, hnil, hr⟩ := quiet_pure.mp hrest
    rw [hnil, htu]
    exact ⟨rfl, .failed hno, _, hr⟩

theorem fetches_append (tr₁ tr₂ : RouterTrace) :
    fetches (tr₁ ++ tr₂) = fetches tr₁ ++ fetches tr₂ := List.filterMap_append

/-- The loop fetches at every URL in turn, and the table is what that leaves. -/
theorem discoverDelegates_run {urls : List String}
    {r : Except RoutingFailure (List LdpIdentityCard)}
    (h : RouterRun (router.discoverDelegates urls) s tr t r) :
    (fetches tr).map Prod.fst = urls ∧
      Replayed router.client s.delegates (fetches tr) t.delegates := by
  induction urls generalizing s t tr r with
  | nil =>
      obtain ⟨htu, hnil, _⟩ := quiet_pure.mp h
      rw [hnil, htu]
      exact ⟨rfl, .nil⟩
  | cons url urls ih =>
      unfold LdpRouter.discoverDelegates at h
      rcases h.of_bind with ⟨found, u, tr₁, tr₂, h₁, h₂, htr⟩ | ⟨e, h₁, _⟩
      · obtain ⟨answer, hfetched, hrecorded, _⟩ := discoverDelegate_run h₁
        have hfirst : Replayed router.client s.delegates [(url, answer)] u.delegates :=
          .snoc .nil hrecorded
        have hrest : (fetches tr₂).map Prod.fst = urls ∧
            Replayed router.client u.delegates (fetches tr₂) t.delegates := by
          rcases h₂.of_bind with ⟨discovered, v, tr₃, tr₄, h₃, h₄, htr₂⟩ | ⟨e, h₃, _⟩
          · obtain ⟨htv, hnil, _⟩ := quiet_pure.mp h₄
            rw [htr₂, hnil, List.append_nil, htv]
            exact ih h₃
          · exact ih h₃
        rw [htr, fetches_append, hfetched]
        exact ⟨congrArg (List.cons url) hrest.1, hfirst.append hrest.2⟩
      · obtain ⟨_, _, _, found, hr⟩ := discoverDelegate_run h₁
        cases hr

/-- Only an assignment changes the table. -/
def Assigns : RouterCall → Prop
  | .setDelegate _ _ => True
  | _ => False

theorem table_kept {α : Type} {p : RouterProgram α} {r : Except RoutingFailure α}
    (hp : p.Uses (fun _ _ => True) fun q => ¬ Assigns q) (h : RouterRun p s tr t r) :
    t.delegates = s.delegates := by
  have htrans : ∀ s t u : RouterState, t.delegates = s.delegates →
      u.delegates = t.delegates → u.delegates = s.delegates := fun _ _ _ hst htu => htu.trans hst
  refine h.relates (G := fun s t => t.delegates = s.delegates) (fun _ => rfl) htrans
    (fun _ _ => False.elim) ?_ hp
  intro q s a t hq hm
  refine ⟨trivial, ?_⟩
  cases q with
  | task q => exact hm.2
  | delegates => rw [hm.2]
  | setDelegate => exact (hq trivial).elim

/-- What a task sends is sent to its URL. -/
def AimsAt (url : String) : RouterCall → Prop
  | .task (.client (.postMessage destination _)) => destination = url
  | .setDelegate _ _ => False
  | _ => True

theorem submitTask_aims (client : LdpClient) (url : String) (task : TaskArguments) :
    (submitTask fromIsoFormat hmac client url task).Uses (fun _ _ => True)
      fun q => AimsAt url (.task q) := by
  have hordinary : Ordinary fun q => AimsAt url (.task (.client q)) :=
    ⟨trivial, trivial, trivial, trivial, trivial⟩
  have hsubmit : ∀ session, (submitIn fromIsoFormat hmac client url task session).Uses
      (fun _ _ => True) fun q => AimsAt url (.task q) := fun session =>
    submitIn_asks hordinary (fun _ => rfl) (fun _ => trivial) task session
  unfold submitTask
  split
  · exact hsubmit _
  · refine (getOrEstablish_asks trivial trivial ?_).bind hsubmit
    exact establishSession_asks hordinary (fun _ => rfl) trivial fun _ => trivial

variable {skill : String} {inputData : Value} {strategy : RoutingStrategy}
  {trustDomain : Option String}

theorem submitTo_aims (delegate : LdpIdentityCard) :
    (router.submitTo fromIsoFormat hmac skill inputData strategy delegate).Uses
      (fun _ _ => True) (AimsAt delegate.endpoint) :=
  (uses_translate (f := RouterCall.task) (fun _ hq => hq)
    (submitTask_aims router.client delegate.endpoint { skill, inputData })).bind
    fun _ => uses_pure _

/-- A card is selected and its endpoint is where everything is sent, or nothing is
selected and nothing is asked after that. -/
theorem routeAndSubmit_run {r : Except RoutingFailure Routed}
    (h : RouterRun (router.routeAndSubmit fromIsoFormat hmac skill inputData strategy trustDomain)
      s tr t r) :
    t.delegates = s.delegates ∧
      ∀ url document answer, ⟨.task (.client (.postMessage url document)), answer⟩ ∈ tr →
        ∃ delegate, select s.delegates skill strategy trustDomain = .ok (some delegate) ∧
          delegate.endpoint = url := by
  obtain ⟨delegates, u, rest, ⟨hread, hu⟩, hrun, htr⟩ := quiet_ask.mp h
  rw [hread, hu] at hrun
  have hrest : RouterRun (LdpRouter.chosen skill strategy trustDomain
    (select s.delegates skill strategy trustDomain) >>=
    router.submitTo fromIsoFormat hmac skill inputData strategy) s rest t r := hrun
  cases hselect : select s.delegates skill strategy trustDomain with
  | error e =>
      rw [hselect] at hrest
      obtain ⟨ht, hnil, _⟩ := quiet_throw.mp hrest
      rw [htr, hnil, ht]
      exact ⟨rfl, by simp⟩
  | ok choice =>
      rw [hselect] at hrest
      cases choice with
      | none =>
          obtain ⟨ht, hnil, _⟩ := quiet_throw.mp hrest
          rw [htr, hnil, ht]
          exact ⟨rfl, by simp⟩
      | some delegate =>
          have hsent : RouterRun (router.submitTo fromIsoFormat hmac skill inputData strategy
            delegate) s rest t r := hrest
          have haims := hsent.events (fun _ _ _ _ _ _ => trivial) (submitTo_aims delegate)
          refine ⟨table_kept ((submitTo_aims delegate).mono ?_) hsent, ?_⟩
          · intro q hq hassigns
            cases q with
            | setDelegate => exact hq
            | _ => exact hassigns
          · intro url document answer hmem
            rw [htr] at hmem
            have hposted : ⟨.task (.client (.postMessage url document)), answer⟩ ∈ rest := by
              simpa using hmem
            exact ⟨delegate, rfl, (haims _ hposted).symm⟩

end Calls

/-! ## Runs of the router -/

/-- The fetches of the discoveries so far and the state they led to. Calls may
overlap: a pass of a loop awaits nothing between the answer and the entry, so the
passes of all calls are ordered by their answers. -/
inductive History (router : LdpRouter) (fromIsoFormat : String → Option Deadline) (hmac : Hmac) :
    List Fetch → RouterState → Prop
  | start (client : ClientState) : History router fromIsoFormat hmac [] ⟨client, .empty⟩
  | pass {fetched : List Fetch} {s t : RouterState} {url : String} {tr : RouterTrace}
      {r : Except RoutingFailure (Option LdpIdentityCard)} :
      History router fromIsoFormat hmac fetched s →
      RouterRun (router.discoverDelegate url) s tr t r →
      History router fromIsoFormat hmac (fetched ++ fetches tr) t
  | route {fetched : List Fetch} {s t : RouterState} {skill : String} {inputData : Value}
      {strategy : RoutingStrategy} {trustDomain : Option String} {tr : RouterTrace}
      {r : Except RoutingFailure Routed} : History router fromIsoFormat hmac fetched s →
      RouterRun (router.routeAndSubmit fromIsoFormat hmac skill inputData strategy trustDomain)
        s tr t r →
      History router fromIsoFormat hmac fetched t

section Runs
variable {router : LdpRouter} {fromIsoFormat : String → Option Deadline} {hmac : Hmac}
  {fetched : List Fetch} {s t : RouterState}

theorem History.replayed (h : History router fromIsoFormat hmac fetched s) :
    Replayed router.client .empty fetched s.delegates := by
  induction h with
  | start => exact .nil
  | pass _ hrun ih =>
      obtain ⟨answer, hfetched, hrecorded, _⟩ := discoverDelegate_run hrun
      rw [hfetched]
      exact .snoc ih hrecorded
  | route _ hrun ih =>
      rw [(routeAndSubmit_run hrun).1]
      exact ih

/-- A call of `discover_delegates` is its passes. -/
theorem History.discoverDelegates {urls : List String} {tr : RouterTrace}
    {r : Except RoutingFailure (List LdpIdentityCard)}
    (h : History router fromIsoFormat hmac fetched s)
    (hrun : RouterRun (router.discoverDelegates urls) s tr t r) :
    History router fromIsoFormat hmac (fetched ++ fetches tr) t := by
  induction urls generalizing s t tr r fetched with
  | nil =>
      obtain ⟨ht, hnil, _⟩ := quiet_pure.mp hrun
      rw [hnil, ht, show fetches [] = [] from rfl, List.append_nil]
      exact h
  | cons url urls ih =>
      unfold LdpRouter.discoverDelegates at hrun
      rcases hrun.of_bind with ⟨found, u, tr₁, tr₂, h₁, h₂, htr⟩ | ⟨e, h₁, _⟩
      · rw [htr, fetches_append, ← List.append_assoc]
        have hpassed := h.pass h₁
        rcases h₂.of_bind with ⟨discovered, v, tr₃, tr₄, h₃, h₄, htr₂⟩ | ⟨e, h₃, _⟩
        · obtain ⟨htv, hnil, _⟩ := quiet_pure.mp h₄
          rw [htr₂, hnil, List.append_nil, htv]
          exact ih hpassed h₃
        · exact ih hpassed h₃
      · obtain ⟨_, _, _, found, hr⟩ := discoverDelegate_run h₁
        cases hr

theorem LastDiscovered.trusted {client : LdpClient} {url : String} {card : LdpIdentityCard}
    (h : LastDiscovered client fetched url card) (henforced : client.enforceTrustDomains = true) :
    client.trustDomain.trusts card.trustDomain.name = true := by
  obtain ⟨x, _, document, _, hcard⟩ := h
  exact hcard.2 henforced

theorem selected_entry {skill : String} {strategy : RoutingStrategy}
    {trustDomain : Option String} {delegate : LdpIdentityCard}
    (h : select s.delegates skill strategy trustDomain = .ok (some delegate)) :
    ∃ url, s.delegates.lookup url = some delegate :=
  OrderedMap.mem_values_iff.mp (List.mem_filter.mp (RoutedSelection.select_mem h)).1

end Runs

/-- A peer that gives one reply to every message and one card. -/
def routing (reply card : Value) (made : Factories) :
    (q : RouterCall) → RouterState → q.Answer × RouterState
  | .task q, s =>
      ((answering reply card made q s.client).1,
        { s with client := (answering reply card made q s.client).2 })
  | .delegates, s => (s.delegates, s)
  | .setDelegate url identity, s => ((), { s with delegates := s.delegates.set url identity })

theorem routing_meaning (reply card : Value) (made : Factories) (q : RouterCall)
    (s : RouterState) : RouterCall.Meaning q s (routing reply card made q s).1
      (routing reply card made q s).2 := by
  cases q with
  | task q => exact ⟨answering_meaning reply card made q s.client, rfl⟩
  | _ => simp [routing, RouterCall.Meaning]

/-- A card that declares an endpoint of its own. -/
def strayCard : LdpIdentityCard :=
  { PythonSessionCache.plainCard with endpoint := "http://elsewhere" }

end LdpProtocol.RouterTable
