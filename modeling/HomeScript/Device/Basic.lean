import HomeScript.Device.Handle

/-! # Devices

The devices that the home runtime knows, and their order in the toolbox: by kind, then by the name
that is shown.
-/

namespace HomeScript

inductive DeviceKind where
  | dummy
  | doorSensor
  | light
  | sensor
  | powerOutlet
  | motionSensor
  | unknown
  deriving DecidableEq

instance : Inhabited DeviceKind := ⟨.unknown⟩

namespace DeviceKind

def name : DeviceKind → String
  | dummy => "Dummy"
  | doorSensor => "DoorSensor"
  | light => "Light"
  | sensor => "Sensor"
  | powerOutlet => "PowerOutlet"
  | motionSensor => "MotionSensor"
  | unknown => "Unknown"

/-- A name that is not listed belongs to a kind not known here. -/
def ofName : String → DeviceKind
  | "Dummy" => dummy
  | "DoorSensor" => doorSensor
  | "Light" => light
  | "Sensor" => sensor
  | "PowerOutlet" => powerOutlet
  | "MotionSensor" => motionSensor
  | _ => unknown

/-- Kinds of a higher priority are listed first. -/
def priority : DeviceKind → Nat
  | doorSensor | powerOutlet | motionSensor => 3
  | light => 2
  | sensor => 1
  | dummy | unknown => 0

end DeviceKind

structure Device where
  integration : String
  id : String
  name : Option String := none
  kind : DeviceKind := .unknown
  state : Option String := none
  deriving DecidableEq

namespace Device

def handle (d : Device) : Handle :=
  ⟨d.integration, d.id⟩

def displayName (d : Device) : String :=
  d.name.getD d.id

def precedes (a b : Device) : Bool :=
  b.kind.priority < a.kind.priority
    || (a.kind.priority == b.kind.priority && !(b.displayName < a.displayName : Bool))

/-- Devices of equal priority and name keep their order. -/
def inToolboxOrder (devices : List Device) : List Device :=
  devices.mergeSort precedes

end Device
end HomeScript
