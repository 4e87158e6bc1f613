import HomeScript.Text.Unprintable

/-! # Texts shown in messages

A message shows a text between double quotes, so that its ends and its invisible characters can be
told apart.
-/

namespace HomeScript.Text

def shownChar (c : Char) : List Char :=
  match c with
  | '\"' => ['\\', '\"']
  | '\\' => ['\\', '\\']
  | '\n' => ['\\', 'n']
  | '\r' => ['\\', 'r']
  | '\t' => ['\\', 't']
  | '\x00' => ['\\', '0']
  | c =>
    if isUnprintable c then ['\\', 'u', '\x7b'] ++ Nat.toDigits 16 c.toNat ++ ['\x7d'] else [c]

def shown (text : String) : String :=
  String.ofList ('\"' :: text.toList.flatMap shownChar ++ ['\"'])

def shownOption : Option String → String
  | none => "None"
  | some text => "Some(" ++ shown text ++ ")"

end HomeScript.Text
