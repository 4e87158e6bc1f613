import HomeScript.Automation.TimeOfDay
import HomeScript.Automation.Wire
import HomeScript.Studio.HomeRuntime
import HomeScript.Studio.Http
import HomeScript.Studio.MediaType
import HomeScript.Transpile

/-! # The service of the studio

Each path has one method. Code is generated from workspaces and programs, typed times are checked,
and what the runtime lists is passed on.
-/

namespace HomeScript.Studio

inductive Route where
  | health
  | systemInfo
  | transpile
  | generate
  | validateTime
  | devices
  | events
  | deploy
  deriving DecidableEq

namespace Route

def all : List Route :=
  [health, systemInfo, transpile, generate, validateTime, devices, events, deploy]

def path : Route → String
  | health => "/health"
  | systemInfo => "/api/v1/system/info"
  | transpile => "/api/v1/transpile"
  | generate => "/api/v1/generate"
  | validateTime => "/api/v1/validate/time"
  | devices => "/api/v1/devices"
  | events => "/api/v1/events"
  | deploy => "/api/v1/deploy"

def method : Route → String
  | health | systemInfo | devices | events => "GET"
  | transpile | generate | validateTime | deploy => "POST"

def ofPath (path : String) : Option Route :=
  all.find? fun r => r.path = path

end Route

structure Service where
  quoting : Quoting
  client : Client

/-- The code of a workspace with its warnings, or the fault of a text that holds none. -/
def transpileText (q : Quoting) (text : String) : Except Json.Fault Transpiled := do
  return ((← Workspace.read text).transpile q).value

def transpiledJson (t : Transpiled) : Json :=
  .object [("code", .string t.code), ("warnings", .array (t.warnings.map .string))]

def workspaceRefused : Response :=
  .failure 400 "JSON error"

def runtimeFailed (e : RuntimeError) : Response :=
  .failure 502 e.message

/-- The value at the start of a body that is declared to be JSON. -/
def jsonBody {α : Type} (r : Request) (decode : Json → Except Json.Fault α) :
    Except Response α :=
  if r.contentType.any MediaType.isJson then
    match Json.readFirst r.body >>= decode with
    | .ok x => .ok x
    | .error (.misfit _) =>
      .error (.failure 422 "Failed to deserialize the JSON body into the target type")
    | .error _ => .error (.failure 400 "Failed to parse the request body as JSON")
  else .error (.failure 415 "Expected request with `Content-Type: application/json`")

/-- The response to a text that is too large. -/
def oversized : Response where
  status := 413
  contentType := some "text/plain; charset=utf-8"
  body := "Failed to buffer the request body: length limit exceeded"

/--
The response to a body that is too large for its route. Only what is declared to be JSON is measured
where JSON is wanted, and no body is wanted where something is asked for.
-/
def overflow? (r : Request) : Route → Option Response
  | .transpile | .deploy => if r.isOversized then some oversized else none
  | .generate | .validateTime =>
    if r.isOversized && r.contentType.any MediaType.isJson then
      some (.failure 413 "Failed to buffer the request body")
    else none
  | .health | .systemInfo | .devices | .events => none

def answered : Except Response Response → Response
  | .ok r => r
  | .error r => r

def timeOfJson (j : Json) : Except Json.Fault String := do
  let r ← j.record ["time"] .streamed
  r.required "time" (·.1.asString)

def timeResponse : Option String → Response
  | some time => .success (.object [("time", .string time)])
  | none => .failure 400 "Time has no hour component"

namespace Service

def transpile (s : Service) (r : Request) : Response :=
  match transpileText s.quoting r.body with
  | .ok t => .success (transpiledJson t)
  | .error _ => workspaceRefused

def generate (s : Service) (r : Request) : Response :=
  answered ((jsonBody r Program.ofJson).map fun p => .plain (p.code s.quoting))

def validateTime (r : Request) : Response :=
  answered ((jsonBody r timeOfJson).map fun t => timeResponse (TimeOfDay.normalize t))

def devices (s : Service) : Talk Response := do
  match ← s.client.devices with
  | .ok ds => return .success (Device.listToJson (Device.inToolboxOrder ds))
  | .error e => return runtimeFailed e

/-- Where the runtime does not list its events, the catalog says what its devices can emit. -/
def events (s : Service) : Talk Response := do
  match ← s.client.possibleEvents with
  | .ok es => return .success (RuntimeEvent.listToJson es)
  | .error _ =>
    match ← s.client.devices with
    | .ok ds => return .success (RuntimeEvent.listToJson (HomeScript.possibleEvents ds))
    | .error e => return runtimeFailed e

/-- Only code that could be generated is sent to the runtime. -/
def deploy (s : Service) (r : Request) : Talk Response := do
  match transpileText s.quoting r.body with
  | .error _ => return workspaceRefused
  | .ok t =>
    match ← s.client.updateCode t.code with
    | .ok () => return .success (transpiledJson t)
    | .error e => return runtimeFailed e

def dispatch (s : Service) (r : Request) : Route → Talk Response
  | .health => return .json 200 (.object [("status", .string "ok")])
  | .systemInfo =>
    return .success (.object [("name", .string "Hat Studio"), ("version", .string "0.1.0")])
  | .transpile => return s.transpile r
  | .generate => return s.generate r
  | .validateTime => return validateTime r
  | .devices => s.devices
  | .events => s.events
  | .deploy => s.deploy r

/-- A body that is too large for its route is refused before anything is done with it. -/
def run (s : Service) (r : Request) (route : Route) : Talk Response :=
  match overflow? r route with
  | some response => return response
  | none => s.dispatch r route

/--
A browser that asks for its options is allowed everything. A request for the head of what can be
got is answered without the body.
-/
def handle (s : Service) (r : Request) : Talk Response := do
  if r.method = "OPTIONS" then return { status := 200 }
  match Route.ofPath r.path with
  | none => return { status := 404 }
  | some route =>
    if r.method = route.method then s.run r route
    else if r.method = "HEAD" ∧ route.method = "GET" then
      return (← s.run r route).withoutBody
    else return { status := 405 }

def handleAll (s : Service) : List Request → Talk (List Response)
  | [] => return []
  | r :: rest => do
    let response ← s.handle r
    return response :: (← s.handleAll rest)

end Service
end HomeScript.Studio
