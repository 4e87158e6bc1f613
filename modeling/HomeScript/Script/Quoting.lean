/-! # String literals

A literal stands between double quotes. Under the escaped policy its end is its only bare quote
and it never spans lines; the verbatim policy leaves the text as it is.
-/

namespace HomeScript

inductive Quoting where
  | verbatim
  | escaped
  deriving DecidableEq

instance : Inhabited Quoting := ⟨.verbatim⟩

namespace Quoting

def name : Quoting → String
  | verbatim => "verbatim"
  | escaped => "escaped"

def all : List Quoting :=
  [verbatim, escaped]

def escapeChar (c : Char) : List Char :=
  match c with
  | '\"' => ['\\', '\"']
  | '\\' => ['\\', '\\']
  | '\n' => ['\\', 'n']
  | '\r' => ['\\', 'r']
  | c => [c]

/-- What a literal holds between its quotes. -/
def content : Quoting → List Char → List Char
  | verbatim, cs => cs
  | escaped, cs => cs.flatMap escapeChar

def quote (q : Quoting) (text : String) : String :=
  String.ofList ('\"' :: q.content text.toList ++ ['\"'])

@[simp] theorem toList_quote (q : Quoting) (text : String) :
    (q.quote text).toList = '\"' :: q.content text.toList ++ ['\"'] := by
  simp [quote]

end Quoting
end HomeScript
