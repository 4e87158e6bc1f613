import HomeScript.Net.SocketAddress
import HomeScript.Net.Url
import HomeScript.Script.Settings
import HomeScript.Text.Shown

/-! # Configuration

The studio is configured by three variables of its environment, each with a default. The first one
with an unusable value is reported.
-/

namespace HomeScript.Studio
open Net

inductive Setting where
  | address
  | runtimeUrl
  | quoting
  deriving DecidableEq

namespace Setting

def key : Setting → String
  | address => "HAT_STUDIO_ADDR"
  | runtimeUrl => "HAT_RUNTIME_URL"
  | quoting => "HAT_STRING_QUOTING"

end Setting

structure InvalidValue where
  setting : Setting
  reason : String
  deriving DecidableEq

def InvalidValue.message (e : InvalidValue) : String :=
  "invalid value for " ++ e.setting.key ++ ": " ++ e.reason

structure Config where
  address : SocketAddress
  runtimeUrl : Url
  script : ScriptSettings
  deriving DecidableEq

namespace Config

def readAddress (value : Option String) : Except InvalidValue SocketAddress :=
  match SocketAddress.parse (value.getD "0.0.0.0:3000") with
  | some a => .ok a
  | none => .error ⟨.address, "invalid socket address syntax"⟩

def readRuntimeUrl (value : Option String) : Except InvalidValue Url :=
  match Url.parse (value.getD "http://localhost:8080") with
  | .ok u => .ok u
  | .error e => .error ⟨.runtimeUrl, e.message⟩

def readQuoting : Option String → Except InvalidValue Quoting
  | none => .ok .verbatim
  | some value =>
    match Quoting.known.lookup value with
    | some q => .ok q
    | none =>
      .error ⟨.quoting, "expected \"verbatim\" or \"escaped\", got " ++ Text.shown value⟩

def ofLookup (lookup : String → Option String) : Except InvalidValue Config := do
  let value (s : Setting) := lookup s.key
  let address ← readAddress (value .address)
  let runtimeUrl ← readRuntimeUrl (value .runtimeUrl)
  let quoting ← readQuoting (value .quoting)
  return { address, runtimeUrl, script := { quoting } }

end Config
end HomeScript.Studio
