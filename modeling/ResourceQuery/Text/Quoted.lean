import ResourceQuery.Text.CodePoints

/-!
# Quoted text

Messages show a piece of foreign text between double quotes, written so that it stays on one line
and every character of it can be told apart: quotes, backslashes and the common controls have a
short escape, every other character that would be invisible or would merge with its neighbour is
shown by its number.
-/

set_option autoImplicit false

namespace ResourceQuery.Text

/-- A character by its number, in lower-case hexadecimal without leading zeros. -/
def numbered (c : Char) : List Char :=
  ['\\', 'u', '\x7b'] ++ Nat.toDigits 16 c.toNat ++ ['\x7d']

def quotedChar (c : Char) : List Char :=
  match c with
  | '"' => ['\\', '"']
  | '\\' => ['\\', '\\']
  | '\n' => ['\\', 'n']
  | '\r' => ['\\', 'r']
  | '\t' => ['\\', 't']
  | '\x00' => ['\\', '0']
  | c => if isCombining c || isInvisible c then numbered c else [c]

/-- A text between double quotes, each character in its quoted form. -/
def quote (text : String) : String :=
  String.ofList ('"' :: text.toList.flatMap quotedChar ++ ['"'])

end ResourceQuery.Text
