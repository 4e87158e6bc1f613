import HomeScript.Proofs.Device.Event
import HomeScript.Proofs.Device.Wire
import HomeScript.Proofs.Studio.Deploy

/-! # Events where the runtime lists none

Where the runtime does not list its events, they are told from its devices. A browser that has
listed the devices itself could tell the same events from them.
-/

namespace HomeScript.Studio
open Json (Fault)

/-! ## What is read from responses -/

/-- The data in the envelope of a response. -/
def Response.dataAs {α : Type} (decode : Json → Except Fault α) (r : Response) :
    Except Fault α := do
  let j ← Json.read r.body
  let envelope ← j.record ["success", "data"] .streamed
  envelope.required "data" (decode ·.1)

theorem Response.dataAs_success {α : Type} {decode : Json → Except Fault α} {data : Json}
    (h : data.sorted.depth ≤ 2) : (success data).dataAs decode = decode data.sorted.reread := by
  have hdepth : (Json.object [("success", .boolean true), ("data", data.sorted)]).depth
      ≤ Json.Reader.maxDepth := by
    have hmax : 3 ≤ Json.Reader.maxDepth := by decide
    refine (Nat.succ_le_succ (Json.depthMembers_le_iff.2 ?_)).trans hmax
    rw [List.forall_mem_cons, List.forall_mem_singleton]
    exact ⟨Nat.zero_le _, h⟩
  rw [dataAs, success, json, Json.read_text hdepth]
  rfl

theorem Response.dataAs_devices (ds : List Device) :
    (success (Device.listToJson ds)).dataAs Device.listOfJson = .ok ds := by
  rw [dataAs_success (Device.depth_sorted ds), Device.listOfJson_sorted]

theorem Response.dataAs_events (es : List RuntimeEvent) :
    (success (RuntimeEvent.listToJson es)).dataAs RuntimeEvent.listOfJson = .ok es := by
  rw [dataAs_success (RuntimeEvent.depth_sorted es), RuntimeEvent.listOfJson_sorted]

namespace Talk
variable {α β : Type}

theorem run_map (f : α → β) (m : Talk α) (earlier : List Exchange) :
    (f <$> m).run earlier = (f (m.run earlier).1, (m.run earlier).2) :=
  rfl

theorem run_bind (m : Talk α) (f : α → Talk β) (earlier : List Exchange) :
    (m >>= f).run earlier = (f (m.run earlier).1).run (m.run earlier).2 :=
  rfl

end Talk

/-! ## Questions to the runtime -/

/-- The call that asks for what an endpoint lists. -/
def Call.question (url : Net.Url) : Call :=
  { method := "GET", url }

/-- A reply that brings no list: there is none, its status is no success, or it holds something
else. -/
def ListsNothing {α : Type} (decode : Json → Except Fault α) : Option Reply → Prop
  | none => True
  | some reply => reply.isSuccess = false ∨ ∃ fault, (Json.read reply.body >>= decode) = .error fault

namespace Client
variable (c : Client) {α : Type}

/-- What is listed in a reply. -/
def listed (decode : Json → Except Fault α) : Except RuntimeError Reply → Except RuntimeError α
  | .error err => .error err
  | .ok reply =>
    match Json.read reply.body >>= decode with
    | .ok x => .ok x
    | .error _ => .error .undecodable

theorem fetch_eq (e : Endpoint) (decode : Json → Except Fault α) :
    c.fetch e decode = listed decode <$> c.ask e .question := by
  rw [map_eq_pure_bind]
  refine bind_congr fun reply => ?_
  cases reply with
  | error err => rfl
  | ok reply =>
    dsimp only [listed]
    cases Json.read reply.body >>= decode <;> rfl

theorem run_fetch (e : Endpoint) (decode : Json → Except Fault α) (earlier : List Exchange) :
    (c.fetch e decode).run earlier =
      match c.address e with
      | .error err => (.error err, earlier)
      | .ok url =>
        let reply := c.runtime.reply earlier (.question url)
        (listed decode (outcome e url reply), earlier ++ [⟨.question url, reply⟩]) := by
  rw [fetch_eq, Talk.run_map, run_ask]
  cases c.address e <;> rfl

/-- The runtime gives no list of its events after these exchanges. -/
def EventsFail (earlier : List Exchange) : Prop :=
  ∀ url, c.address .possibleEvents = .ok url →
    ListsNothing RuntimeEvent.listOfJson (c.runtime.reply earlier (.question url))

/-- The runtime replies the same when it is asked for its devices. -/
def SameDevices (before after : List Exchange) : Prop :=
  ∀ url, c.address .devices = .ok url →
    c.runtime.reply before (.question url) = c.runtime.reply after (.question url)

variable {c}

theorem listed_of_listsNothing {decode : Json → Except Fault α} {reply : Option Reply}
    (h : ListsNothing decode reply) (e : Endpoint) (url : Net.Url) :
    ∃ err, listed decode (outcome e url reply) = .error err := by
  cases reply with
  | none => exact ⟨_, rfl⟩
  | some reply =>
    rw [outcome]
    by_cases hstatus : reply.isSuccess
    · rcases h with h | ⟨fault, h⟩
      · exact absurd hstatus (by simp [h])
      · rw [if_pos hstatus, listed, h]
        exact ⟨_, rfl⟩
    · rw [if_neg hstatus]
      exact ⟨_, rfl⟩

theorem run_fetch_of_listed {e : Endpoint} {url : Net.Url} {decode : Json → Except Fault α}
    {reply : Reply} {x : α} {earlier : List Exchange} (haddress : c.address e = .ok url)
    (hreply : c.runtime.reply earlier (.question url) = some reply) (hstatus : reply.isSuccess)
    (hread : (Json.read reply.body >>= decode) = .ok x) :
    ((c.fetch e decode).run earlier).1 = .ok x := by
  rw [run_fetch, haddress]
  dsimp only
  rw [hreply, outcome, if_pos hstatus, listed, hread]

theorem EventsFail.run {earlier : List Exchange} (h : c.EventsFail earlier) :
    ∃ err, (c.possibleEvents.run earlier).1 = .error err := by
  rw [possibleEvents, run_fetch]
  cases haddress : c.address .possibleEvents with
  | error err => exact ⟨err, rfl⟩
  | ok url => exact listed_of_listsNothing (h url haddress) .possibleEvents url

theorem SameDevices.run {before after : List Exchange} (h : c.SameDevices before after) :
    (c.devices.run before).1 = (c.devices.run after).1 := by
  rw [devices, run_fetch, run_fetch]
  cases haddress : c.address .devices with
  | error err => rfl
  | ok url =>
    dsimp only
    rw [h url haddress]

end Client

/-! ## Devices and events -/

/-- The responses to requests for devices and for events say the same of the devices. -/
structure Agree (devices events : Response) : Prop where
  status : events.status = 200 ↔ devices.status = 200
  listed : devices.status = 200 → ∃ ds,
    devices.dataAs Device.listOfJson = .ok ds
      ∧ events.dataAs RuntimeEvent.listOfJson = .ok (possibleEvents ds)
      ∧ devices = .success (Device.listToJson ds)
      ∧ events = .success (RuntimeEvent.listToJson (possibleEvents ds))
  failed : devices.status ≠ 200 → ∃ err : RuntimeError,
    devices = .failure 502 err.message ∧ events = .failure 502 err.message

namespace Service
variable {s : Service}

/-- The response to what a runtime has listed, or failed to list. -/
def told {α : Type} (write : α → Json) : Except RuntimeError α → Response
  | .ok x => .success (write x)
  | .error err => runtimeFailed err

def orderedJson (ds : List Device) : Json :=
  Device.listToJson (Device.inToolboxOrder ds)

def possibleJson (ds : List Device) : Json :=
  RuntimeEvent.listToJson (HomeScript.possibleEvents ds)

theorem run_devices {r : Request} (h : r.IsFor .devices) (earlier : List Exchange) :
    ((s.handle r).run earlier).1 = told orderedJson (s.client.devices.run earlier).1 := by
  have hroute : s.run r .devices = told orderedJson <$> s.client.devices := by
    rw [map_eq_pure_bind]
    refine bind_congr fun ds => ?_
    cases ds <;> rfl
  rw [s.handle_of_isFor h, hroute, Talk.run_map]

/-- The response to what a runtime has listed as its events. -/
def toldEvents (s : Service) : Except RuntimeError (List RuntimeEvent) → Talk Response
  | .ok es => pure (.success (RuntimeEvent.listToJson es))
  | .error _ => told possibleJson <$> s.client.devices

/-- Where no events are listed, the response is to the list of devices. -/
theorem run_events {r : Request} (h : r.IsFor .events) {earlier : List Exchange}
    (hfail : s.client.EventsFail earlier) : ((s.handle r).run earlier).1
      = told possibleJson (s.client.devices.run (s.client.possibleEvents.run earlier).2).1 := by
  have hroute : s.run r .events = s.client.possibleEvents >>= s.toldEvents := by
    refine bind_congr fun es => ?_
    cases es with
    | ok es => rfl
    | error err =>
      rw [toldEvents, map_eq_pure_bind]
      refine bind_congr fun ds => ?_
      cases ds <;> rfl
  obtain ⟨err, herr⟩ := hfail.run
  rw [s.handle_of_isFor h, hroute, Talk.run_bind, herr, toldEvents, Talk.run_map]

/-- Requests for devices and for events succeed or fail together, and then the events are those of
the devices as they are listed. -/
theorem events_agree {r r' : Request} (hevents : r.IsFor .events) (hdevices : r'.IsFor .devices)
    {earlier earlier' : List Exchange} (hfail : s.client.EventsFail earlier)
    (hsame : s.client.SameDevices (s.client.possibleEvents.run earlier).2 earlier') :
    Agree ((s.handle r').run earlier').1 ((s.handle r).run earlier).1 := by
  rw [run_events hevents hfail, run_devices hdevices, hsame.run]
  cases (s.client.devices.run earlier').1 with
  | ok ds =>
    rw [told, told, orderedJson, possibleJson, ← possibleEvents_inToolboxOrder]
    constructor
    · exact iff_of_true rfl rfl
    · intro _
      exact ⟨_, Response.dataAs_devices _, Response.dataAs_events _, rfl, rfl⟩
    · intro h
      exact absurd rfl h
  | error err =>
    constructor
    · exact Iff.rfl
    · intro h
      exact absurd h (by decide : (502 : ℕ) ≠ 200)
    · intro _
      exact ⟨err, rfl, rfl⟩

/-- The runtime lists its devices whatever it is asked, and lists the lamp before the door. -/
theorem events_agree_reordered :
    let lamp : Device := { integration := "hue", id := "lamp", kind := .light }
    let door : Device := { integration := "zwave", id := "door", kind := .doorSensor }
    let list := (Device.listToJson [lamp, door]).sorted
    let runtime : HomeRuntime := { reply := fun _ _ => some ⟨200, list.text⟩ }
    let s : Service := {
      quoting := .verbatim
      client := {
        runtime
        baseUrl := { scheme := "http", host := some (.name "hat"), path := .segments [""] } } }
    let devices := ((s.handle { method := "GET", target := "/api/v1/devices" }).run []).1
    let events := ((s.handle { method := "GET", target := "/api/v1/events" }).run []).1
    devices = .success (Device.listToJson [door, lamp])
      ∧ events.status = 200 ∧ Agree devices events := by
  intro lamp door list runtime s devices events
  have hdepth : list.depth ≤ Json.Reader.maxDepth :=
    (Device.depth_sorted [lamp, door]).trans (by decide)
  have hfail : s.client.EventsFail [] := by
    intro url _
    refine .inr ⟨.misfit (.missing "event"), ?_⟩
    rw [Json.read_text hdepth]
    rfl
  have hagree : Agree devices events :=
    events_agree (by decide) (by decide) hfail fun _ _ => rfl
  obtain ⟨url, hurl⟩ : ∃ url, s.client.address .devices = .ok url :=
    Json.exists_of_isOk (by decide +kernel)
  have hread : (Json.read list.text >>= Device.listOfJson) = .ok [lamp, door] := by
    rw [Json.read_text hdepth, Json.ok_bind, Device.listOfJson_sorted]
  have hlisted : (s.client.devices.run []).1 = .ok [lamp, door] :=
    Client.run_fetch_of_listed hurl rfl rfl hread
  have hdevices : devices = .success (Device.listToJson [door, lamp]) := by
    have horder : Device.inToolboxOrder [lamp, door] = [door, lamp] := by
      simp [Device.inToolboxOrder, List.mergeSort, lamp, door, Device.precedes,
        DeviceKind.priority]
    refine (run_devices (by decide) []).trans ?_
    rw [hlisted, told, orderedJson, horder]
  exact ⟨hdevices, hagree.status.2 (by rw [hdevices]; rfl), hagree⟩

end Service
end HomeScript.Studio
