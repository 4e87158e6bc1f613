/-! # Slots

The inputs of an expression expect values of some type. Where nothing is connected, a default
literal of that type is written.
-/

namespace HomeScript

inductive Slot where
  | string
  | number
  | boolean
  | any
  deriving DecidableEq

namespace Slot

def default : Slot → String
  | string => "\"\""
  | number => "0"
  | boolean => "false"
  | any => "null"

end Slot
end HomeScript
