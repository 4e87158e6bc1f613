import HomeScript.Net.Host

/-! # URLs

A URL is read without another one that it could be relative to. Schemes known to the web have hosts
of their own, standard ports, and paths that are never empty.
-/

namespace HomeScript.Net

inductive UrlPath where
  /-- Text that does not start with a slash. -/
  | plain (text : String)
  | segments (names : List String)
  deriving DecidableEq

structure Url where
  scheme : String
  username : String := ""
  password : String := ""
  host : Option Host := none
  port : Option UInt16 := none
  path : UrlPath
  query : Option String := none
  fragment : Option String := none
  deriving DecidableEq

namespace UrlPath

def text : UrlPath → String
  | plain t => t
  | segments names => String.join (names.map ("/" ++ ·))

/-- A path without a host is kept from looking like one by a point in front. -/
def guarded : UrlPath → String
  | p@(segments ("" :: _ :: _)) => "/." ++ p.text
  | p => p.text

end UrlPath

namespace Url

def userinfo (u : Url) : String :=
  if u.username = "" ∧ u.password = "" then ""
  else u.username ++ (if u.password = "" then "" else ":" ++ u.password) ++ "@"

def portText (u : Url) : String :=
  match u.port with
  | some p => ":" ++ Nat.repr p.toNat
  | none => ""

def queryText (u : Url) : String :=
  match u.query with
  | some q => "?" ++ q
  | none => ""

def fragmentText (u : Url) : String :=
  match u.fragment with
  | some f => "#" ++ f
  | none => ""

/-- The path and the query, as a request for the URL names them. -/
def target (u : Url) : String :=
  u.path.text ++ u.queryText

def text (u : Url) : String :=
  u.scheme ++ ":" ++
    (match u.host with
    | some h => "//" ++ u.userinfo ++ h.text ++ u.portText ++ u.path.text
    | none => u.path.guarded) ++
    u.queryText ++ u.fragmentText

/-! ## Reading -/

/-- The schemes of the web, with their standard ports. -/
def standardPorts : List (String × Option UInt16) :=
  [("http", some 80), ("https", some 443), ("ws", some 80), ("wss", some 443), ("ftp", some 21),
    ("file", none)]

def isSpecial (scheme : String) : Bool :=
  (standardPorts.lookup scheme).isSome

/-- Blanks and control characters around a URL, and line ends and tabs within, do not count. -/
def clean (cs : List Char) : List Char :=
  let trim (cs : List Char) := cs.dropWhile (· ≤ ' ')
  (trim (trim cs).reverse).reverse.filter fun c => c ≠ '\t' ∧ c ≠ '\n' ∧ c ≠ '\r'

def isSchemeChar (c : Char) : Bool :=
  c.isAlphanum || c == '+' || c == '-' || c == '.'

/-- The scheme before the first colon, in lower case, and what follows. -/
def scheme? (cs : List Char) : Option (String × List Char) :=
  match cs.span isSchemeChar with
  | (first :: more, ':' :: rest) =>
    if first.isAlpha then some (String.ofList ((first :: more).map Char.toLower), rest) else none
  | _ => none

/-- Where a backslash counts as a slash. -/
def isSlash (special : Bool) (c : Char) : Bool :=
  c == '/' || (special && c == '\\')

def endsAuthority (special : Bool) (c : Char) : Bool :=
  isSlash special c || c == '?' || c == '#'

/-- The text before and after the last `@`. -/
def splitUserinfo (cs : List Char) : Option (List Char × List Char) :=
  if cs.contains '@' then
    let (host, before) := cs.reverse.span (· ≠ '@')
    some ((before.drop 1).reverse, host.reverse)
  else none

/-- The name and the password around the first colon. -/
def credentials (cs : List Char) : String × String :=
  let (name, rest) := cs.span (· ≠ ':')
  let encode (cs : List Char) := String.ofList (Percent.encode Percent.inUserinfo cs)
  (encode name, encode (rest.drop 1))

/-- The host and what follows from the first colon on that is not in brackets. -/
def splitHost (inBrackets : Bool) : List Char → List Char × List Char
  | [] => ([], [])
  | c :: rest =>
    if c = ':' ∧ ¬ inBrackets then ([], c :: rest)
    else
      let (host, after) := splitHost (c = '[' || (inBrackets && c ≠ ']')) rest
      (c :: host, after)

/-- The port after a host, unless it is the standard one. -/
def port? (standard : Option UInt16) : List Char → Except UrlError (Option UInt16)
  | ':' :: ds =>
    let n := Nat.ofDigitChars 10 ds 0
    if !ds.all Char.isDigit || 0x10000 ≤ n then .error .invalidPort
    else if ds.isEmpty || standard = some (UInt16.ofNat n) then .ok none
    else .ok (some (UInt16.ofNat n))
  | _ => .ok none

def isSingleDot (cs : List Char) : Bool :=
  [".", "%2e"].contains (String.ofList (cs.map Char.toLower))

def isDoubleDot (cs : List Char) : Bool :=
  ["..", ".%2e", "%2e.", "%2e%2e"].contains (String.ofList (cs.map Char.toLower))

/-- A letter and a colon or bar, which the scheme of files keeps at the start of paths. -/
def isDrive : List Char → Bool
  | [letter, mark] => letter.isAlpha && (mark == ':' || mark == '|')
  | _ => false

/-- Leaves the last directory, but not a drive. -/
def parent (isFile : Bool) (path : List (List Char)) : List (List Char) :=
  match isFile, path with
  | true, [drive] => if isDrive drive then [drive] else []
  | _, path => path.dropLast

/-- Dots that end a path leave a directory, which ends in an empty segment. -/
def addSegment (isFile isLast : Bool) (path : List (List Char)) (segment : List Char) :
    List (List Char) :=
  let ending := if isLast then [[]] else []
  if isDoubleDot segment then parent isFile path ++ ending
  else if isSingleDot segment then path ++ ending
  else if isFile && path.isEmpty && isDrive segment then path ++ [segment.take 1 ++ [':']]
  else path ++ [Percent.encode Percent.inPath segment]

def addSegments (isFile : Bool) (path : List (List Char)) : List (List Char) → List (List Char)
  | [] => path
  | [last] => addSegment isFile true path last
  | s :: rest => addSegments isFile (addSegment isFile false path s) rest

/-- The path of files has no empty segments at its start. -/
def withoutEmptyStart : List (List Char) → List (List Char)
  | [] :: s :: rest => withoutEmptyStart (s :: rest)
  | path => path

def pathOf (special isFile : Bool) (cs : List Char) : UrlPath :=
  let path := addSegments isFile [] (cs.splitOnP (isSlash special))
  .segments ((if isFile then withoutEmptyStart path else path).map String.ofList)

/-- The path after a host, whose first slash may be missing where there is always a path. -/
def pathAfterHost (special isFile : Bool) : List Char → UrlPath
  | [] => if special then .segments [""] else .segments []
  | c :: rest => pathOf special isFile (if isSlash special c then rest else c :: rest)

/-- A text before a mark, and the text after it if the mark is there. -/
def cut (mark : Char) (cs : List Char) : List Char × Option (List Char) :=
  match cs.span (· ≠ mark) with
  | (before, _ :: after) => (before, some after)
  | (before, []) => (before, none)

/-- What follows the scheme, in its parts: hierarchy, query and fragment. -/
def parts (special : Bool) (cs : List Char) : List Char × Option String × Option String :=
  let (rest, fragment) := cut '#' cs
  let (hierarchy, query) := cut '?' rest
  let querySet := if special then Percent.inSpecialQuery else Percent.inQuery
  (hierarchy, query.map (String.ofList ∘ Percent.encode querySet),
    fragment.map (String.ofList ∘ Percent.encode Percent.inFragment))

/-- A URL with the authority that follows two slashes. -/
def withAuthority (scheme : String) (cs : List Char) : Except UrlError Url := do
  let special := isSpecial scheme
  let (authority, path) := cs.span (!endsAuthority special ·)
  let userinfo := splitUserinfo authority
  let (username, password) := credentials (userinfo.elim [] Prod.fst)
  let (hostText, portText) := splitHost false (userinfo.elim authority Prod.snd)
  if hostText.isEmpty ∧ (special ∨ userinfo.isSome ∨ ¬ portText.isEmpty) then
    throw .emptyHost
  let host ← if special then Host.parse hostText else Host.parseOther hostText
  let port ← port? ((standardPorts.lookup scheme).join) portText
  return {
    scheme, username, password, port
    host := some host
    path := pathAfterHost special false path }

/-- The host of a file may be missing, and a drive is none. -/
def ofFile (cs : List Char) : Except UrlError Url := do
  let file (host : Host) (path : List Char) : Url :=
    { scheme := "file", host := some host, path := pathAfterHost true true path }
  match cs with
  | a :: b :: rest =>
    if isSlash true a ∧ isSlash true b then
      let (hostText, path) := rest.span (!isSlash true ·)
      if isDrive hostText then return file (.name "") rest
      else if hostText.isEmpty then return file (.name "") path
      else
        let host ← Host.parse hostText
        let hidden := host = .name "localhost" ∨ isDrive ((path.drop 1).takeWhile (!isSlash true ·))
        return file (if hidden then .name "" else host) path
    else return file (.name "") cs
  | _ => return file (.name "") cs

def hierarchy (scheme : String) (cs : List Char) : Except UrlError Url :=
  if scheme = "file" then ofFile cs
  else if isSpecial scheme then withAuthority scheme (cs.dropWhile (isSlash true))
  else match cs with
    | '/' :: '/' :: rest => withAuthority scheme rest
    | '/' :: rest => .ok { scheme, path := pathOf false false rest }
    | cs => .ok {
        scheme, path := .plain (String.ofList (Percent.encode Percent.isControl cs)) }

def parse (text : String) : Except UrlError Url := do
  match scheme? (clean text.toList) with
  | none => throw .relative
  | some (scheme, rest) =>
    let (main, query, fragment) := parts (isSpecial scheme) rest
    return { ← hierarchy scheme main with query, fragment }

end Url
end HomeScript.Net
