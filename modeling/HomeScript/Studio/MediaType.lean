/-! # Media types

A media type names a type and a subtype, and may have parameters. The studio asks for one thing
only: whether a body is declared to be JSON.
-/

namespace HomeScript.Studio.MediaType

def isTokenChar (c : Char) : Bool :=
  c.isAlphanum || "!#$%&'*+-.^_`|~".toList.contains c

/-- What has been read of the parameters. -/
inductive Place where
  | before
  | name
  | valueStart
  | value
  | quotedStart
  | quoted
  | afterQuoted

namespace Place

def next? : Place → Char → Option Place
  | before, c =>
    if c = ' ' ∨ c = ';' then some before else if isTokenChar c then some name else none
  | name, c => if c = '=' then some valueStart else if isTokenChar c then some name else none
  | valueStart, c =>
    if c = '\"' then some quotedStart else if isTokenChar c then some value else none
  | value, c => if c = ';' then some before else if isTokenChar c then some value else none
  | quotedStart, c => if c < ' ' ∨ c = '\x7f' then none else some quoted
  | quoted, c =>
    if c = '\"' then some afterQuoted else if c < ' ' ∨ c = '\x7f' then none else some quoted
  | afterQuoted, c =>
    if c = ';' then some before else if c = ' ' then some afterQuoted else none

/-- A name needs a value, and an opened quote its end. -/
def mayEnd : Place → Bool
  | before | valueStart | value | afterQuoted => true
  | name | quotedStart | quoted => false

end Place

def areParameters (cs : List Char) : Bool :=
  (cs.foldlM Place.next? Place.before).any Place.mayEnd

/-- A subtype without the suffix after its last plus sign, and that suffix if there is one. -/
def splitSuffix (subtype : List Char) : List Char × Option (List Char) :=
  let (suffix, before) := subtype.reverse.span (· ≠ '+')
  match before with
  | _ :: c :: rest => ((c :: rest).reverse, some suffix.reverse)
  | _ => (subtype, none)

/-- JSON itself, or a type of `application` that is written in it, in letters of either case. -/
def isJson (contentType : String) : Bool :=
  let (essence, parameters) := contentType.toList.span (· ≠ ';')
  let (type, rest) := (essence.map Char.toLower).span (· ≠ '/')
  let subtype := rest.drop 1
  let (base, suffix) := splitSuffix subtype
  let json := "json".toList
  type == "application".toList && subtype.all isTokenChar
    && (base == json || suffix == some json)
    && contentType.toList.all (fun c => c == '\t' || (' ' ≤ c && c ≤ '~'))
    && areParameters (parameters.drop 1)

end HomeScript.Studio.MediaType
