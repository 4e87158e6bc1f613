import HomeScript.Net.DomainName
import HomeScript.Net.Ip
import HomeScript.Net.Percent

/-! # Hosts of URLs

A host is a name or an address. A name whose last label is a number is an address of version four,
written with one to four numbers in one of three bases.
-/

namespace HomeScript.Net

inductive UrlError where
  | relative
  | emptyHost
  | invalidPort
  | invalidDomainName
  | invalidDomainCharacter
  | invalidIpv4
  | invalidIpv6
  deriving DecidableEq

def UrlError.message : UrlError → String
  | relative => "relative URL without a base"
  | emptyHost => "empty host"
  | invalidPort => "invalid port number"
  | invalidDomainName => "invalid international domain name"
  | invalidDomainCharacter => "invalid domain character"
  | invalidIpv4 => "invalid IPv4 address"
  | invalidIpv6 => "invalid IPv6 address"

inductive Host where
  | name (text : String)
  | ipv4 (address : Ipv4)
  | ipv6 (address : Ipv6)
  deriving DecidableEq

namespace Host

def text : Host → String
  | name s => s
  | ipv4 a => a.text
  | ipv6 a => "[" ++ a.compressed ++ "]"

/-- A number in base eight after a zero, in base sixteen after `0x`, and else in base ten. -/
def number? : List Char → Option Nat
  | [] => none
  | '0' :: x :: ds =>
    if x = 'x' || x = 'X' then if ds.isEmpty then some 0 else Text.hex? ds
    else if (x :: ds).all fun d => '0' ≤ d && d ≤ '7' then some (Nat.ofDigitChars 8 (x :: ds) 0)
    else none
  | ds => if ds.all Char.isDigit then some (Nat.ofDigitChars 10 ds 0) else none

/-- The labels of a name without the empty one after a final point. -/
def labels (cs : List Char) : List (List Char) :=
  match (cs.splitOn '.').reverse with
  | [] :: first :: rest => (first :: rest).reverse
  | ls => ls.reverse

def endsInNumber (cs : List Char) : Bool :=
  match (labels cs).getLast? with
  | some l => !l.isEmpty && (l.all Char.isDigit || (number? l).isSome)
  | none => false

/-- The last number fills all octets that the others leave. -/
def ipv4OfNumbers? (ns : List Nat) : Option Ipv4 :=
  match ns.reverse with
  | [] => none
  | last :: others =>
    let width := 8 * (4 - others.length)
    if 3 < others.length || others.any (255 < ·) || 1 <<< width ≤ last then none
    else
      let high := others.reverse.foldl (fun n octet => n * 256 + octet) 0
      some ⟨UInt32.ofNat (high <<< width + last)⟩

/-- An address in brackets, if a host starts with one. -/
def bracketed? : List Char → Option (Except UrlError Host)
  | '[' :: rest => some <|
    match rest.getLast?, Ipv6.parse rest.dropLast with
    | some ']', some a => .ok (ipv6 a)
    | _, _ => .error .invalidIpv6
  | _ => none

/-- The host of a URL of a known scheme. -/
def parse (cs : List Char) : Except UrlError Host :=
  match bracketed? cs with
  | some h => h
  | none =>
    match DomainName.toAscii? cs with
    | none => .error .invalidDomainName
    | some [] => .error .emptyHost
    | some ascii =>
      if endsInNumber ascii then
        match ((labels ascii).mapM number?).bind ipv4OfNumbers? with
        | some a => .ok (ipv4 a)
        | none => .error .invalidIpv4
      else .ok (name (String.ofList ascii))

def isForbidden (c : Char) : Bool :=
  "\x00\t\n\r #/:<>?@[\\]^|".toList.contains c

/-- The host of a URL of another scheme, whose names are not looked into. -/
def parseOther (cs : List Char) : Except UrlError Host :=
  match bracketed? cs with
  | some h => h
  | none =>
    if cs.any isForbidden then .error .invalidDomainCharacter
    else .ok (name (String.ofList (Percent.encode Percent.isControl cs)))

end Host
end HomeScript.Net
