import LdpProtocol.InsertionOrderedMaps
import LdpProtocol.PythonTasks

/-!
# The Python router

`select`, `discover_delegates` and `route_and_submit` over the client. The table
of delegates keeps the order in which URLs were first discovered, and a sort is
stable in either direction. What the keys of a sort order when one of them is
not a number is not documented; any order the insertion sort gives stands for it.
-/
namespace LdpProtocol.PythonRouter
open InteractivePrograms InterferedRuns TranslatedPrograms
open JsonValues EnvelopeSigning PythonMessages PythonSigning PythonIdentity
open PythonClient PythonTasks
open ExactFloats InsertionOrderedMaps
open DelegateIdentity (TrustDomain)

inductive RoutingStrategy where
  | quality
  | cost
  | latency
  | balanced
  deriving DecidableEq

def RoutingStrategy.value : RoutingStrategy → String
  | .quality => "quality"
  | .cost => "cost"
  | .latency => "latency"
  | .balanced => "balanced"

abbrev Delegates := OrderedMap String LdpIdentityCard

/-- An empty filter excludes nothing. -/
def inDomain (trustDomain : Option String) (identity : LdpIdentityCard) : Bool :=
  match trustDomain with
  | some domain => decide (domain = "" ∨ identity.trustDomain.name = domain)
  | none => true

def candidates (delegates : Delegates) (skill : String) (trustDomain : Option String) :
    List LdpIdentityCard :=
  delegates.values.filter fun identity =>
    (identity.capability skill).isSome && inDomain trustDomain identity

def balancedScore (skill : String) (d : LdpIdentityCard) : Except ZeroDivision ExactFloat :=
  ExactFloat.div (.finite (d.qualityScore skill))
    (((d.cost skill).mul (.finite (d.latency skill))).add (.finite (1 / 10 ^ 9)))

/-- What the candidates are sorted by. -/
def sortKey (skill : String) : RoutingStrategy → LdpIdentityCard → Except ZeroDivision ExactFloat
  | .quality, d => .ok (ExactFloat.finite (d.qualityScore skill)).neg
  | .cost, d => .ok (d.cost skill)
  | .latency, d => .ok (.finite (d.latency skill))
  | .balanced, d => balancedScore skill d

/-- Whether the highest key comes first. -/
def RoutingStrategy.reverse : RoutingStrategy → Bool
  | .balanced => true
  | _ => false

/-- The key `x` has to come before the key `y`. -/
def comesBefore (reverse : Bool) (x y : ExactFloat) : Bool :=
  if reverse then y.lt x else x.lt y

/-- A card with its key; every key is computed before anything is compared. -/
def keyed (skill : String) (strategy : RoutingStrategy) (d : LdpIdentityCard) :
    Except ZeroDivision (ExactFloat × LdpIdentityCard) := do
  let key ← sortKey skill strategy d
  pure (key, d)

def sorted (reverse : Bool) (cards : List (ExactFloat × LdpIdentityCard)) :
    List (ExactFloat × LdpIdentityCard) :=
  cards.insertionSort fun a b => comesBefore reverse b.1 a.1 = false

/-- The first of the sorted candidates; there is none if nothing was sorted. -/
def select (delegates : Delegates) (skill : String) (strategy : RoutingStrategy)
    (trustDomain : Option String) : Except ZeroDivision (Option LdpIdentityCard) := do
  let cards ← (candidates delegates skill trustDomain).mapM (keyed skill strategy)
  pure ((sorted strategy.reverse cards).head?.map Prod.snd)

/-- What a call of the router raises. -/
inductive RoutingFailure where
  | task (failure : Failure)
  | valueError (message : String)
  | zeroDivision

inductive RouterCall where
  | task (q : TaskCall)
  | delegates
  | setDelegate (url : String) (identity : LdpIdentityCard)

abbrev RouterCall.Answer : RouterCall → Type
  | .task q => q.Answer
  | .delegates => Delegates
  | .setDelegate _ _ => Unit

abbrev RouterProgram := Program RouterCall RouterCall.Answer RoutingFailure

def submitted {α : Type} (p : TaskProgram α) : RouterProgram α :=
  translate RouterCall.task (fun _ a => a) RoutingFailure.task p

def setDelegate (url : String) (identity : LdpIdentityCard) : RouterProgram Unit :=
  Program.call (RouterCall.setDelegate url identity)

structure LdpRouter where
  client_ : Option LdpClient := none
  delegateId : String := "ldp:router:default"
  trustDomain : Option TrustDomain := none
  enforceTrustDomains : Bool := true

/-- Where the answer of a task came from. -/
structure RoutedTo where
  delegateId : String
  name : String
  modelFamily : String
  endpoint : String
  strategy : String

structure Routed where
  result : TaskReport
  routedTo : RoutedTo

namespace LdpRouter
variable (router : LdpRouter)

/-- The given client, or the router's own. -/
def client : LdpClient :=
  match router.client_ with
  | some client => client
  | none =>
      { delegateId := router.delegateId
        trustDomain := router.trustDomain.getD { name := "default" }
        enforceTrustDomains := router.enforceTrustDomains }

/-- What becomes of a discovery; whatever it raises is dropped. -/
def recordDelegate (url : String) :
    Except RoutingFailure LdpIdentityCard → RouterProgram (Option LdpIdentityCard)
  | .ok card => do
      let identity := { card with endpoint := url }
      setDelegate url identity
      pure (some identity)
  | .error _ => pure none

/-- One pass of the loop. -/
def discoverDelegate (url : String) : RouterProgram (Option LdpIdentityCard) := do
  let outcome ← (submitted (lifted (router.client.discover url))).attempt
  recordDelegate url outcome

def discoverDelegates : List String → RouterProgram (List LdpIdentityCard)
  | [] => pure []
  | url :: urls => do
      let identity ← router.discoverDelegate url
      let discovered ← discoverDelegates urls
      pure (identity.toList ++ discovered)

def noDelegate (skill : String) (strategy : RoutingStrategy) (trustDomain : Option String) :
    RoutingFailure := .valueError
  ("No delegate supports skill '" ++ skill ++ "' (strategy=" ++ strategy.value ++
    ", trust_domain=" ++ trustDomain.getD "None" ++ ")")

/-- The choice, or what is raised when there is none. -/
def chosen (skill : String) (strategy : RoutingStrategy) (trustDomain : Option String) :
    Except ZeroDivision (Option LdpIdentityCard) → RouterProgram LdpIdentityCard
  | .ok (some delegate) => .pure delegate
  | .ok none => .throw (noDelegate skill strategy trustDomain)
  | .error _ => .throw .zeroDivision

/-- The task goes to the endpoint of the chosen card. -/
def submitTo (fromIsoFormat : String → Option Deadline) (hmac : Hmac) (skill : String)
    (inputData : Value) (strategy : RoutingStrategy) (delegate : LdpIdentityCard) :
    RouterProgram Routed := do
  let result ← submitted (submitTask fromIsoFormat hmac router.client delegate.endpoint
    { skill, inputData })
  pure ⟨result, delegate.delegateId, delegate.name, delegate.modelFamily, delegate.endpoint,
    strategy.value⟩

def routeAndSubmit (fromIsoFormat : String → Option Deadline) (hmac : Hmac) (skill : String)
    (inputData : Value) (strategy : RoutingStrategy) (trustDomain : Option String) :
    RouterProgram Routed := do
  let delegates ← Program.call RouterCall.delegates
  let delegate ← chosen skill strategy trustDomain (select delegates skill strategy trustDomain)
  router.submitTo fromIsoFormat hmac skill inputData strategy delegate

end LdpRouter

/-- The calls of the router's user that ask anything. -/
inductive RouterOperation where
  | discoverDelegates (urls : List String)
  | routeAndSubmit (skill : String) (inputData : Value) (strategy : RoutingStrategy)
      (trustDomain : Option String)

inductive RouterReturned where
  | cards (discovered : List LdpIdentityCard)
  | routed (answer : Routed)

def RouterOperation.program (fromIsoFormat : String → Option Deadline) (hmac : Hmac)
    (router : LdpRouter) : RouterOperation → RouterProgram RouterReturned
  | .discoverDelegates urls => do
      let discovered ← router.discoverDelegates urls
      pure (.cards discovered)
  | .routeAndSubmit skill inputData strategy trustDomain => do
      let answer ← router.routeAndSubmit fromIsoFormat hmac skill inputData strategy trustDomain
      pure (.routed answer)

/-- The state of the client and the table. -/
structure RouterState where
  client : ClientState
  delegates : Delegates

/-- The table is the router's; its client and the peers act as before. -/
def RouterCall.Meaning : InterferedRuns.Meaning RouterCall RouterCall.Answer RouterState
  | .task q, s, a, t => TaskCall.Meaning q s.client a t.client ∧ t.delegates = s.delegates
  | .delegates, s, a, t => a = s.delegates ∧ t = s
  | .setDelegate url identity, s, _, t =>
      t = { s with delegates := s.delegates.set url identity }

end LdpProtocol.PythonRouter
