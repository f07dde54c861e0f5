import Workflow.Text.Hidden

set_option autoImplicit false

namespace Workflow.Text

def byNumber (c : Char) : List Char :=
  ['\\', 'u', '\x7b'] ++ Nat.toDigits 16 c.toNat ++ ['\x7d']

def shownChar (c : Char) : List Char :=
  match c with
  | '"' => ['\\', '"']
  | '\\' => ['\\', '\\']
  | '\n' => ['\\', 'n']
  | '\r' => ['\\', 'r']
  | '\t' => ['\\', 't']
  | '\x00' => ['\\', '0']
  | c => if isHidden c then byNumber c else [c]

def shown (text : String) : String := String.ofList ('"' :: text.toList.flatMap shownChar ++ ['"'])

end Workflow.Text
