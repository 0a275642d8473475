import LdpProtocol.ClientTrust
import LdpProtocol.IdentityWire
import LdpProtocol.TranslatedRuns
import Mathlib.Data.List.DropRight

/-!
# The Rust client over HTTP

`LdpClient` builds an endpoint from a URL, sends a request and reads the response.
The HTTP library answers each request with a response or an error text; it is one that
follows no redirects, so every request that leaves is one of these. The programs
of the adapter become programs over HTTP when every exchange and every fetch of a
card is one request with what `LdpClient` makes of the answer.
-/
namespace LdpProtocol.HttpClient
open InteractivePrograms InterferedRuns ConcurrentCalls TranslatedPrograms TranslatedRuns
open JsonValues MessageTypes DelegateIdentity
open SessionManager (ClientCall ClientState LdpAdapterConfig)
open ClientTrust (AdapterCall AdapterProgram AdapterOperation)
open EnvelopeSigning (Hmac)

/-- What is used of a response: whether its status is a success and how the status
is displayed, the text of its body if it can be read, and the body as JSON. -/
structure Response where
  isSuccess : Bool
  status : String
  text : Option String
  json : Except String Value

inductive HttpCall where
  | get (endpoint : String)
  | post (endpoint : String) (document : Value)

namespace HttpCall

abbrev Answer (_ : HttpCall) : Type := Except String Response

def endpoint : HttpCall → String
  | .get endpoint => endpoint
  | .post endpoint _ => endpoint

end HttpCall

abbrev HttpProgram := Program HttpCall HttpCall.Answer String

/-- `trim_end_matches('/')`. -/
def trimEndSlashes (url : String) : String :=
  .ofList (url.toList.rdropWhile fun c => c == '/')

def endpointAt (url path : String) : String := trimEndSlashes url ++ path

/-- However many slashes end the URL, the endpoint is the same. -/
theorem endpointAt_slash (url path : String) :
    endpointAt (url ++ "/") path = endpointAt url path := by
  unfold endpointAt trimEndSlashes
  have hslash : (url ++ "/").toList = url.toList ++ ['/'] := String.toList_append
  rw [hslash, List.rdropWhile_concat_pos _ _ _ (by simp)]

section
variable (describe : Value → String)

/-- `response.json::<T>()`; what the library says of a document of another type is
described by `describe`. -/
def Response.jsonAs {α : Type} (read : Value → Option α) (response : Response) : Except String α :=
  match response.json with
  | .ok document =>
      match read document with
      | some a => .ok a
      | none => .error (describe document)
  | .error e => .error e

/-- The texts that go before what the library says. -/
structure Wording where
  request : String
  status : Response → String
  parse : String

/-- What every method of the client makes of an answer. -/
def received {α : Type} (wording : Wording) (read : Value → Option α) :
    Except String Response → Except String α
  | .ok response =>
      if response.isSuccess then
        (response.jsonAs describe read).mapError fun e => wording.parse ++ e
      else .error (wording.status response)
  | .error e => .error (wording.request ++ e)

def messageWording : Wording where
  request := "LDP HTTP request failed: "
  status response := "LDP request failed (" ++ response.status ++ "): " ++
    response.text.getD "unable to read body"
  parse := "Failed to parse LDP response: "

def identityWording : Wording where
  request := "Failed to fetch identity card: "
  status response := "Identity card fetch failed (" ++ response.status ++ ")"
  parse := "Failed to parse identity card: "

def sendMessage (url : String) (message : LdpEnvelope) : HttpProgram LdpEnvelope := do
  let answer ← Program.call (HttpCall.post (endpointAt url "/ldp/messages") message.toValue)
  Program.ofExcept (received describe messageWording LdpEnvelope.fromValue answer)

def fetchIdentityCard (url : String) : HttpProgram LdpIdentityCard := do
  let answer ← Program.call (HttpCall.get (endpointAt url "/ldp/identity"))
  Program.ofExcept (received describe identityWording LdpIdentityCard.fromValue answer)

/-- A well-known card that cannot be parsed is an error; the other endpoint is tried
only when the request fails. -/
def fetchIdentityWellknown (url : String) : HttpProgram LdpIdentityCard := do
  let answer ← Program.call (HttpCall.get (endpointAt url "/.well-known/ldp-identity"))
  match answer with
  | .ok response =>
      if response.isSuccess then
        Program.ofExcept ((response.jsonAs describe LdpIdentityCard.fromValue).mapError
          fun e => "Failed to parse identity: " ++ e)
      else fetchIdentityCard describe url
  | .error _ => fetchIdentityCard describe url

end

/-! ## The adapter over HTTP -/

/-- What the adapter asks of its own maps and clocks, and of the HTTP library. -/
inductive WebCall where
  | own (q : ClientCall)
  | http (q : HttpCall)

abbrev WebCall.Answer : WebCall → Type
  | .own q => q.Answer
  | .http q => q.Answer

abbrev WebProgram := Program WebCall WebCall.Answer String

/-- The request a question becomes, if it becomes one. -/
def onWire : AdapterCall → WebCall
  | .client (.sendMessage url message) =>
      .http (.post (endpointAt url "/ldp/messages") message.toValue)
  | .client q => .own q
  | .fetchIdentityCard url => .http (.get (endpointAt url "/ldp/identity"))

/-- What `LdpClient` makes of the answer. -/
def offWire (describe : Value → String) : (q : AdapterCall) → (onWire q).Answer → q.Answer
  | .client (.sendMessage _ _), a => received describe messageWording LdpEnvelope.fromValue a
  | .fetchIdentityCard _, a => received describe identityWording LdpIdentityCard.fromValue a
  | .client .newV4, a => a
  | .client .utcNow, a => a
  | .client .utcNowRfc3339, a => a
  | .client (.getSession _), a => a
  | .client (.insertSession _ _), a => a
  | .client (.touchSession _), a => a
  | .client (.removeSession _), a => a
  | .client .sessionUrls, a => a
  | .client (.insertContract _ _), a => a
  | .client (.getContract _), a => a

def overHttp {α : Type} (describe : Value → String) (p : AdapterProgram α) : WebProgram α :=
  translate onWire (offWire describe) id p

end LdpProtocol.HttpClient
