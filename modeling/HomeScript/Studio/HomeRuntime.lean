import HomeScript.Device.Wire
import HomeScript.Json.Reader
import HomeScript.Net.Url

/-! # The home runtime

The runtime lists devices and events and takes new code. It is reached at endpoints under a base
URL. What it replies may depend on all that it was asked before.
-/

namespace HomeScript.Studio
open Net

/-- A request to the runtime. -/
structure Call where
  method : String
  url : Url
  contentType : Option String := none
  body : String := ""
  deriving DecidableEq

structure Reply where
  status : Nat
  body : String := ""
  deriving DecidableEq

def Reply.isSuccess (r : Reply) : Bool :=
  200 ≤ r.status && r.status < 300

/-- A call, with its reply if the runtime was reached. -/
structure Exchange where
  call : Call
  reply : Option Reply
  deriving DecidableEq

/-- The reply to a call after earlier exchanges, or nothing if the runtime is not reached. -/
structure HomeRuntime where
  reply : List Exchange → Call → Option Reply

/-- Nothing listens where the runtime should be. -/
def HomeRuntime.absent : HomeRuntime where
  reply _ _ := none

/-- A computation that talks to the runtime and keeps the exchanges in order. -/
abbrev Talk := StateM (List Exchange)

def HomeRuntime.send (rt : HomeRuntime) (call : Call) : Talk (Option Reply) := do
  let earlier ← get
  let reply := rt.reply earlier call
  set (earlier ++ [⟨call, reply⟩])
  return reply

inductive RuntimeError where
  | invalidAddress (cause : UrlError)
  /-- An address that is not of the web. -/
  | unsupported (url : Url)
  | unreachable (url : Url)
  | undecodable
  | refused (endpoint : String) (reply : Reply)
  deriving DecidableEq

def RuntimeError.message : RuntimeError → String
  | invalidAddress _ => "request failed: builder error"
  | unsupported url => "request failed: builder error for url (" ++ url.text ++ ")"
  | unreachable url => "request failed: error sending request for url (" ++ url.text ++ ")"
  | undecodable => "request failed: error decoding response body"
  | refused endpoint reply =>
    endpoint ++ " returned " ++ Nat.repr reply.status ++ ": " ++ reply.body

inductive Endpoint where
  | devices
  | possibleEvents
  | updateCode
  deriving DecidableEq

def Endpoint.name : Endpoint → String
  | devices => "devices"
  | possibleEvents => "possible_events"
  | updateCode => "update_code"

/-- A runtime and where it is expected. -/
structure Client where
  runtime : HomeRuntime
  baseUrl : Url

def withoutSlashes (cs : List Char) : List Char :=
  (cs.reverse.dropWhile (· = '/')).reverse

/-- The URL of an endpoint, whether or not the base ends in slashes. -/
def endpointUrl (base : Url) (e : Endpoint) : String :=
  String.ofList (withoutSlashes base.text.toList) ++ "/" ++ e.name

namespace Client

def address (c : Client) (e : Endpoint) : Except RuntimeError Url :=
  match Url.parse (endpointUrl c.baseUrl e) with
  | .ok url => if ["http", "https"].contains url.scheme then .ok url else .error (.unsupported url)
  | .error cause => .error (.invalidAddress cause)

/-- Sends a call to an endpoint; a reply counts when its status says success. -/
def ask (c : Client) (e : Endpoint) (call : Url → Call) : Talk (Except RuntimeError Reply) := do
  match c.address e with
  | .error err => return .error err
  | .ok url =>
    match ← c.runtime.send (call url) with
    | none => return .error (.unreachable url)
    | some reply =>
      return if reply.isSuccess then .ok reply else .error (.refused e.name reply)

def fetch {α : Type} (c : Client) (e : Endpoint) (decode : Json → Except Json.Fault α) :
    Talk (Except RuntimeError α) := do
  match ← c.ask e fun url => { method := "GET", url } with
  | .error err => return .error err
  | .ok reply =>
    match Json.read reply.body >>= decode with
    | .ok x => return .ok x
    | .error _ => return .error .undecodable

def devices (c : Client) : Talk (Except RuntimeError (List Device)) :=
  c.fetch .devices Device.listOfJson

def possibleEvents (c : Client) : Talk (Except RuntimeError (List RuntimeEvent)) :=
  c.fetch .possibleEvents RuntimeEvent.listOfJson

/-- Replaces the code that the runtime runs. -/
def updateCode (c : Client) (code : String) : Talk (Except RuntimeError Unit) := do
  let reply ← c.ask .updateCode fun url =>
    { method := "POST", url, contentType := some "text/plain; charset=utf-8", body := code }
  return reply.map fun _ => ()

end Client
end HomeScript.Studio
