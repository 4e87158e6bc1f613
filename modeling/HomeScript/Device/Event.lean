import HomeScript.Device.Basic

/-! # Runtime events

The catalog of built-in events, and which of them the devices of a home can emit.
-/

namespace HomeScript

/-- An event that the runtime can dispatch. -/
structure RuntimeEvent where
  event : String
  description : String
  relatedKind : DeviceKind := .unknown
  deriving DecidableEq

inductive CatalogEvent where
  | doorOpen
  | doorClose
  | lightOn
  | lightOff
  | powerOutletOn
  | powerOutletOff
  | motionSensorOn
  | motionSensorOff
  | sensorValueChange
  /-- Time triggers wait for it. -/
  | clockTick
  deriving DecidableEq

namespace CatalogEvent

def all : List CatalogEvent :=
  [doorOpen, doorClose, lightOn, lightOff, powerOutletOn, powerOutletOff, motionSensorOn,
    motionSensorOff, sensorValueChange, clockTick]

def name : CatalogEvent → String
  | doorOpen => "DoorOpenEvent"
  | doorClose => "DoorCloseEvent"
  | lightOn => "LightOnEvent"
  | lightOff => "LightOffEvent"
  | powerOutletOn => "PowerOutletOnEvent"
  | powerOutletOff => "PowerOutletOffEvent"
  | motionSensorOn => "MotionSensorOnEvent"
  | motionSensorOff => "MotionSensorOffEvent"
  | sensorValueChange => "SensorValueChangeEvent"
  | clockTick => "ClockTickEvent"

def description : CatalogEvent → String
  | doorOpen => "Triggered when a door is opened"
  | doorClose => "Triggered when a door is closed"
  | lightOn => "Triggered when a light is turned on"
  | lightOff => "Triggered when a light is turned off"
  | powerOutletOn => "Triggered when a power outlet is turned on"
  | powerOutletOff => "Triggered when a power outlet is turned off"
  | motionSensorOn => "Triggered when a motion sensor is activated"
  | motionSensorOff => "Triggered when a motion sensor is deactivated"
  | sensorValueChange => "Triggered when a sensor value changes"
  | clockTick => "Triggered periodically by the runtime clock"

def relatedKind : CatalogEvent → DeviceKind
  | doorOpen | doorClose => .doorSensor
  | lightOn | lightOff => .light
  | powerOutletOn | powerOutletOff => .powerOutlet
  | motionSensorOn | motionSensorOff => .motionSensor
  | sensorValueChange => .sensor
  | clockTick => .unknown

def descriptor (e : CatalogEvent) : RuntimeEvent :=
  ⟨e.name, e.description, e.relatedKind⟩

/-- Devices of an unknown kind emit nothing, not even the clock. -/
def ofKind : DeviceKind → List CatalogEvent
  | .doorSensor => [doorOpen, doorClose]
  | .light => [lightOn, lightOff]
  | .powerOutlet => [powerOutletOn, powerOutletOff]
  | .motionSensor => [motionSensorOn, motionSensorOff]
  | .sensor => [sensorValueChange]
  | .dummy | .unknown => []

/-- The events that some device can emit, in the order of the catalog. -/
def possible (devices : List Device) : List CatalogEvent :=
  all.filter fun e => devices.any fun d => (ofKind d.kind).contains e

end CatalogEvent

def possibleEvents (devices : List Device) : List RuntimeEvent :=
  (CatalogEvent.possible devices).map CatalogEvent.descriptor

end HomeScript
