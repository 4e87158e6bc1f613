import HomeScript.Device.Event
import HomeScript.Json.Record

/-! # Devices and events in JSON

A handle is written as its text and a kind as its name. Devices and events are records.
-/

namespace HomeScript
open Json (Fault Stage)

def Handle.toJson (h : Handle) : Json :=
  .string h.text

def Handle.ofJson (j : Json) : Except Fault Handle := do
  match Handle.parse (← j.asString) with
  | .ok h => return h
  | .error e => throw (.misfit (.refused e.message))

def DeviceKind.toJson (k : DeviceKind) : Json :=
  .string k.name

def DeviceKind.ofJson (j : Json) : Except Fault DeviceKind :=
  DeviceKind.ofName <$> j.asString

def textOrNull : Option String → Json
  | some s => .string s
  | none => .null

namespace Device

def fields : List String :=
  ["integration", "id", "name", "typ", "state"]

def toJson (d : Device) : Json :=
  .object [("integration", .string d.integration), ("id", .string d.id),
    ("name", textOrNull d.name), ("typ", d.kind.toJson), ("state", textOrNull d.state)]

def ofJson (j : Json) : Except Fault Device := do
  let r ← j.record fields .streamed
  return {
    integration := ← r.required "integration" (·.1.asString)
    id := ← r.required "id" (·.1.asString)
    name := ← r.optional "name" none (Json.nullable (·.1.asString))
    kind := ← r.optional "typ" .unknown (DeviceKind.ofJson ·.1)
    state := ← r.optional "state" none (Json.nullable (·.1.asString)) }

def listToJson (devices : List Device) : Json :=
  .array (devices.map toJson)

def listOfJson (j : Json) : Except Fault (List Device) := do
  (← j.elements).mapM (ofJson ·.1)

end Device

namespace RuntimeEvent

def fields : List String :=
  ["event", "description", "relatedDeviceType"]

def toJson (e : RuntimeEvent) : Json :=
  .object [("event", .string e.event), ("description", .string e.description),
    ("relatedDeviceType", e.relatedKind.toJson)]

def ofJson (j : Json) : Except Fault RuntimeEvent := do
  let r ← j.record fields .streamed
  return {
    event := ← r.required "event" (·.1.asString)
    description := ← r.required "description" (·.1.asString)
    relatedKind := ← r.optional "relatedDeviceType" .unknown (DeviceKind.ofJson ·.1) }

def listToJson (events : List RuntimeEvent) : Json :=
  .array (events.map toJson)

def listOfJson (j : Json) : Except Fault (List RuntimeEvent) := do
  (← j.elements).mapM (ofJson ·.1)

end RuntimeEvent
end HomeScript
