import HomeScript.Json.Writer

/-! # Requests and responses

The studio answers most requests with an envelope in JSON that says whether they succeeded.
-/

namespace HomeScript.Studio

structure Request where
  method : String
  /-- The path, which a query may follow. -/
  target : String
  contentType : Option String := none
  body : String := ""
  deriving DecidableEq

def Request.path (r : Request) : String :=
  String.ofList (r.target.toList.takeWhile fun c => c ≠ '?' ∧ c ≠ '#')

/-- Bodies of more bytes are not taken. -/
def bodyLimit : Nat := 2097152

def Request.isOversized (r : Request) : Bool :=
  bodyLimit < r.body.utf8ByteSize

structure Response where
  status : Nat
  contentType : Option String := none
  body : String := ""
  deriving DecidableEq

namespace Response

def json (status : Nat) (j : Json) : Response :=
  { status, contentType := some "application/json", body := j.text }

def plain (text : String) : Response :=
  { status := 200, contentType := some "text/plain; charset=utf-8", body := text }

/-- The members of objects in the data are sorted by key. -/
def success (data : Json) : Response :=
  json 200 (.object [("success", .boolean true), ("data", data.sorted)])

def failure (status : Nat) (error : String) : Response :=
  json status (.object [("success", .boolean false), ("error", .string error)])

def withoutBody (r : Response) : Response :=
  { r with body := "" }

end Response
end HomeScript.Studio
