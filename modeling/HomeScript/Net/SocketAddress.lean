import HomeScript.Net.Ip

/-! # Socket addresses

An address and a port. An address of version six stands in brackets and may name a scope.
-/

namespace HomeScript.Net

inductive SocketAddress where
  | v4 (address : Ipv4) (port : UInt16)
  | v6 (address : Ipv6) (scope : UInt32) (port : UInt16)
  deriving DecidableEq

namespace SocketAddress

def scopeText (scope : UInt32) : String :=
  if scope = 0 then "" else "%" ++ Nat.repr scope.toNat

def text : SocketAddress → String
  | v4 a port => a.text ++ ":" ++ Nat.repr port.toNat
  | v6 a scope port => "[" ++ a.text ++ scopeText scope ++ "]:" ++ Nat.repr port.toNat

/-- A number below a bound, with any zeros before it. -/
def number? (bound : Nat) (ds : List Char) : Option Nat :=
  let n := Nat.ofDigitChars 10 ds 0
  if !ds.isEmpty && ds.all Char.isDigit && n < bound then some n else none

/-- The port after a colon. -/
def port? : List Char → Option UInt16
  | ':' :: ds => UInt16.ofNat <$> number? 0x10000 ds
  | _ => none

def scope? : List Char → Option UInt32
  | [] => some 0
  | _ :: ds => UInt32.ofNat <$> number? 0x100000000 ds

def parse (text : String) : Option SocketAddress := do
  match text.toList with
  | '[' :: rest =>
    let (inside, after) := rest.span (· ≠ ']')
    let (address, scope) := inside.span (· ≠ '%')
    return v6 (← Ipv6.parse address) (← scope? scope) (← port? (after.drop 1))
  | cs =>
    let (address, port) := cs.span (· ≠ ':')
    return v4 (← Ipv4.parse address) (← port? port)

end SocketAddress
end HomeScript.Net
