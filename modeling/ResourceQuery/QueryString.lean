import ResourceQuery.Params

/-!
# Query strings

Parameters travel in a URL as one text. Every scalar in them becomes a pair of its place and its
text, where a place is a parameter name followed by item indices and field names in brackets. The
pairs are written in form encoding: letters, digits and four marks stand for themselves, a blank
is a plus sign, and every other character is the percent forms of its bytes.
-/

set_option autoImplicit false

namespace ResourceQuery.QueryString

/-! ## Places and texts -/

/-- The text of a scalar; null is empty. -/
def scalarText : Json → String
  | .bool true => "true"
  | .bool false => "false"
  | .number value => value.text
  | .string value => value
  | _ => ""

/-- The place one level below another. -/
def below (place : String) (step : String) : String := place ++ "[" ++ step ++ "]"

mutual

/-- The scalars of a value at some place, with their own places. -/
def leaves (place : String) : Json → List (String × String)
  | .array items => itemLeaves place 0 items
  | .object fields => fieldLeaves place fields
  | scalar => [(place, scalarText scalar)]

/-- The scalars of items, of which the first has the given index. -/
def itemLeaves (place : String) (index : Nat) : List Json → List (String × String)
  | [] => []
  | item :: rest => leaves (below place (toString index)) item ++ itemLeaves place (index + 1) rest

def fieldLeaves (place : String) : List (String × Json) → List (String × String)
  | [] => []
  | (name, value) :: rest => leaves (below place name) value ++ fieldLeaves place rest

end

def paramLeaves : Params → List (String × String)
  | [] => []
  | (name, value) :: rest => leaves name value ++ paramLeaves rest

/-! ## Form encoding -/

def hexDigit (n : Nat) : Char := if n < 10 then Char.ofNat (48 + n) else Char.ofNat (55 + n)

def percentForm (byte : UInt8) : List Char :=
  ['%', hexDigit (byte.toNat / 16), hexDigit (byte.toNat % 16)]

/-- A character that stands for itself. -/
def isPlain (c : Char) : Bool :=
  ('a' ≤ c && c ≤ 'z') || ('A' ≤ c && c ≤ 'Z') || ('0' ≤ c && c ≤ '9')
    || c = '*' || c = '-' || c = '.' || c = '_'

def encodeChar (c : Char) : List Char :=
  if isPlain c then [c]
  else if c = ' ' then ['+']
  else (String.utf8EncodeChar c).flatMap percentForm

def encode (text : String) : List Char := text.toList.flatMap encodeChar

def encodePair (pair : String × String) : List Char := encode pair.1 ++ '=' :: encode pair.2

/-- Pairs in form encoding, with an ampersand between two of them. -/
def ofPairs (pairs : List (String × String)) : String :=
  String.ofList (['&'].intercalate (pairs.map encodePair))

/-- The query string of parameters. -/
def ofParams (params : Params) : String := ofPairs (paramLeaves params)

end ResourceQuery.QueryString
