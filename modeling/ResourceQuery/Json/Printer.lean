import ResourceQuery.Json

/-!
# Data values as text

Two layouts of the same text: `Json.text` without any blanks, and `Json.page` with one value or
field a line, two blanks a level. Only what the format demands is escaped: quotes, backslashes and
control characters.
-/

set_option autoImplicit false

namespace ResourceQuery.Json

/-- A control character by its number, in four digits. -/
def controlEscape (c : Char) : List Char :=
  let digits := Nat.toDigits 16 c.toNat
  ['\\', 'u'] ++ List.replicate (4 - digits.length) '0' ++ digits

/-- One character of a text value. -/
def escaped (c : Char) : List Char :=
  match c with
  | '"' => ['\\', '"']
  | '\\' => ['\\', '\\']
  | '\n' => ['\\', 'n']
  | '\r' => ['\\', 'r']
  | '\t' => ['\\', 't']
  | '\x08' => ['\\', 'b']
  | '\x0c' => ['\\', 'f']
  | c => if c.toNat < 0x20 then controlEscape c else [c]

/-- A text value between quotes. -/
def quoted (text : String) : String :=
  String.ofList ('"' :: text.toList.flatMap escaped ++ ['"'])

mutual

/-- A value on one line, without blanks. -/
def text : Json → String
  | .null => "null"
  | .bool true => "true"
  | .bool false => "false"
  | .number value => value.text
  | .string value => quoted value
  | .array items => "[" ++ itemsText items ++ "]"
  | .object fields => "\x7b" ++ fieldsText fields ++ "\x7d"

/-- The items of an array, with a comma between two of them. -/
def itemsText : List Json → String
  | [] => ""
  | [item] => item.text
  | item :: next :: rest => item.text ++ "," ++ itemsText (next :: rest)

/-- The fields of an object, with a comma between two of them. -/
def fieldsText : List (String × Json) → String
  | [] => ""
  | [(name, value)] => quoted name ++ ":" ++ value.text
  | (name, value) :: next :: rest =>
    quoted name ++ ":" ++ value.text ++ "," ++ fieldsText (next :: rest)

end

def indent (level : Nat) : String := "\n" ++ String.ofList (List.replicate (2 * level) ' ')

mutual

/-- A value over several lines, of which all but the first start at `level`. Arrays and objects
without content stay on one line. -/
def page (level : Nat) : Json → String
  | .array [] => "[]"
  | .object [] => "\x7b\x7d"
  | .array (item :: rest) =>
    "[" ++ itemsPage (level + 1) (item :: rest) ++ indent level ++ "]"
  | .object (field :: rest) =>
    "\x7b" ++ fieldsPage (level + 1) (field :: rest) ++ indent level ++ "\x7d"
  | .null => "null"
  | .bool true => "true"
  | .bool false => "false"
  | .number value => value.text
  | .string value => quoted value

/-- The items of an array, each on a line of its own. -/
def itemsPage (level : Nat) : List Json → String
  | [] => ""
  | [item] => indent level ++ item.page level
  | item :: next :: rest => indent level ++ item.page level ++ "," ++ itemsPage level (next :: rest)

def fieldsPage (level : Nat) : List (String × Json) → String
  | [] => ""
  | [(name, value)] => indent level ++ quoted name ++ ": " ++ value.page level
  | (name, value) :: next :: rest =>
    indent level ++ quoted name ++ ": " ++ value.page level ++ ","
      ++ fieldsPage level (next :: rest)

end

end ResourceQuery.Json
