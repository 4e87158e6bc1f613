import HomeScript.Automation.Slot

/-! # Built-in functions

The functions of the home runtime, each with the slots of its arguments.
-/

namespace HomeScript

inductive Builtin where
  | getDevice
  | getIntegration
  | eventDate
  | eventTime
  | time
  | turnOnDevice
  | turnOffDevice
  | deviceStatus
  | setDeviceTemperature
  | toggleDevice
  | isDeviceOn
  | isDeviceOff
  | getDeviceState
  | number
  | echo
  deriving DecidableEq

namespace Builtin

def all : List Builtin :=
  [getDevice, getIntegration, eventDate, eventTime, time, turnOnDevice, turnOffDevice,
    deviceStatus, setDeviceTemperature, toggleDevice, isDeviceOn, isDeviceOff, getDeviceState,
    number, echo]

def name : Builtin → String
  | getDevice => "get_device"
  | getIntegration => "get_integration"
  | eventDate => "event_date"
  | eventTime => "event_time"
  | time => "time"
  | turnOnDevice => "turn_on_device"
  | turnOffDevice => "turn_off_device"
  | deviceStatus => "device_status"
  | setDeviceTemperature => "set_device_temperature"
  | toggleDevice => "toggle_device"
  | isDeviceOn => "is_device_on"
  | isDeviceOff => "is_device_off"
  | getDeviceState => "get_device_state"
  | number => "number"
  | echo => "echo"

def slots : Builtin → List Slot
  | getDevice | getIntegration | eventDate | eventTime => []
  | time | turnOnDevice | turnOffDevice | deviceStatus | toggleDevice | isDeviceOn | isDeviceOff
  | getDeviceState => [.string]
  | setDeviceTemperature => [.string, .number]
  | number | echo => [.any]

theorem mem_all (f : Builtin) : f ∈ all := by
  cases f <;> decide

end Builtin

end HomeScript
