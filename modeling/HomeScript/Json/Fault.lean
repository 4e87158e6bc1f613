import HomeScript.Json.Writer
import HomeScript.Text.Shown

/-! # Faults of JSON texts

A text fails to be read because it is no JSON, because it ends too early, or because the value it
holds does not have the shape that was asked for.
-/

namespace HomeScript.Json

/-- What is wrong with the shape of a value. -/
inductive Misfit where
  | missing (field : String)
  | repeated (field : String)
  | unknownVariant (name : String) (known : List String)
  | wrongType (found : Json)
  | wrongValue (found : Json)
  | wrongLength (length : Nat)
  /-- A text that its own reader refuses with this message. -/
  | refused (message : String)

inductive Fault where
  | malformed
  | truncated
  | misfit (cause : Misfit)

def ticked (s : String) : String :=
  "`" ++ s ++ "`"

def describe : Json → String
  | null => "null"
  | boolean b => "boolean " ++ ticked (boolean b).text
  | integer n => "integer " ++ ticked (integer n).text
  | real x => "floating point " ++ ticked (real x).text
  | string s => "string " ++ Text.shown s
  | array _ => "sequence"
  | object _ => "map"
  | unreadable => "unreadable value"

def alternatives : List String → String
  | [] => "nothing"
  | [a] => ticked a
  | [a, b] => ticked a ++ " or " ++ ticked b
  | names => "one of " ++ ", ".intercalate (names.map ticked)

def Misfit.message : Misfit → String
  | missing field => "missing field " ++ ticked field
  | repeated field => "duplicate field " ++ ticked field
  | unknownVariant name known =>
    "unknown variant " ++ ticked name ++ ", expected " ++ alternatives known
  | wrongType found => "invalid type: " ++ describe found
  | wrongValue found => "invalid value: " ++ describe found
  | wrongLength length => "invalid length " ++ Nat.repr length
  | refused message => message

end HomeScript.Json
