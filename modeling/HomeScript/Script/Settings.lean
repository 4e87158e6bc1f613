import HomeScript.Json.Record
import HomeScript.Script.Quoting

/-! # Settings of the code that is written -/

namespace HomeScript
open Json (Fault Stage)

namespace Quoting

def known : List (String × Quoting) :=
  all.map fun q => (q.name, q)

def toJson (q : Quoting) : Json :=
  .string q.name

def ofJson (stage : Stage) : Json → Except Fault Quoting :=
  Json.plainVariant known stage

end Quoting

structure ScriptSettings where
  quoting : Quoting := .verbatim
  deriving DecidableEq

namespace ScriptSettings

def toJson (s : ScriptSettings) : Json :=
  .object [("quoting", s.quoting.toJson)]

def ofJson (j : Json) : Except Fault ScriptSettings := do
  let r ← j.record ["quoting"] .streamed
  return ⟨← r.optional "quoting" .verbatim (Quoting.ofJson .streamed ·.1)⟩

end ScriptSettings
end HomeScript
