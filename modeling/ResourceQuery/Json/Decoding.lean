import ResourceQuery.Json.Encoding
import ResourceQuery.Relationship.Compact

/-!
# Decoding data values

The causes for which a data value does not stand for a value of some type, their wording, and the
readers of the plain types: text, rows of text, parts that may be null, and names from a fixed
list. That a value has no data value at all is one more cause, so that there is one type for all
that can go wrong between the two.
-/

set_option autoImplicit false

namespace ResourceQuery

/-- What a data value was found to be. -/
inductive Found
  | null
  | bool (value : Bool)
  | number (value : Number)
  | string (value : String)
  | sequence
  | map

/-- A found value as messages name it. -/
def Found.text : Found → String
  | .null => "null"
  | .bool true => "boolean `true`"
  | .bool false => "boolean `false`"
  | .number (.int value) => "integer `" ++ toString value ++ "`"
  | .number (.float value) => "floating point `" ++ (Number.float value).text ++ "`"
  | .string value => "string " ++ Text.quote value
  | .sequence => "sequence"
  | .map => "map"

def Json.found : Json → Found
  | .null => .null
  | .bool value => .bool value
  | .number value => .number value
  | .string value => .string value
  | .array _ => .sequence
  | .object _ => .map

/-- Why a data value does not stand for a value of the wanted type, or there is none for a value. -/
inductive DecodeError
  /-- Something else was found than expected. -/
  | unexpected (found : Found) (expected : String)
  /-- An object that should name one of several things has not exactly one field. -/
  | notSingleField
  /-- A sequence ends too early. -/
  | tooShort (length : Nat) (expected : String)
  /-- A sequence goes on after its last element. -/
  | tooLong (length : Nat)
  | missingField (name : String)
  /-- A name is none of those allowed. -/
  | unknownName (name : String) (allowed : List String)
  /-- A value has none of the forms of a type. -/
  | noForm (type : String)
  | notCompact (error : Compact.Error)
  | notEncoded (error : EncodeError)

/-- Names as a message lists them. -/
def listNames : List String → String
  | [only] => "`" ++ only ++ "`"
  | [one, other] => "`" ++ one ++ "` or `" ++ other ++ "`"
  | names => "one of " ++ ", ".intercalate (names.map fun name => "`" ++ name ++ "`")

def DecodeError.message : DecodeError → String
  | .unexpected found expected => "invalid type: " ++ found.text ++ ", expected " ++ expected
  | .notSingleField => "invalid value: map, expected map with a single key"
  | .tooShort length expected =>
    "invalid length " ++ toString length ++ ", expected " ++ expected
  | .tooLong length =>
    "invalid length " ++ toString length ++ ", expected fewer elements in array"
  | .missingField name => "missing field `" ++ name ++ "`"
  | .unknownName name allowed =>
    "unknown variant `" ++ name ++ "`, expected " ++ listNames allowed
  | .noForm type => "data did not match any variant of untagged enum " ++ type
  | .notCompact error => error.message
  | .notEncoded error => error.message

abbrev Decoded (α : Type) := Except DecodeError α

namespace Json

variable {α β : Type}

def decodeString : Json → Decoded String
  | .string value => .ok value
  | other => .error (.unexpected other.found "a string")

/-- The values of all items, or the first error. -/
def decodeEach (decode : Json → Decoded α) : List Json → Decoded (List α)
  | [] => .ok []
  | item :: rest => do
    let value ← decode item
    let values ← decodeEach decode rest
    return value :: values

def decodeList (decode : Json → Decoded α) : Json → Decoded (List α)
  | .array items => decodeEach decode items
  | other => .error (.unexpected other.found "a sequence")

def decodeStrings : Json → Decoded (List String) := decodeList decodeString

def decodeOption (decode : Json → Decoded α) : Json → Decoded (Option α)
  | .null => .ok none
  | other => some <$> decode other

/-- A field that may be absent. -/
def decodeField? (name : String) (decode : Json → Decoded α) (fields : List (String × Json)) :
    Decoded (Option α) :=
  match Ascending.get? name fields with
  | none => .ok none
  | some value => some <$> decode value

/-- A part that may be absent or null. -/
def decodePart (name : String) (decode : Json → Decoded α) (fields : List (String × Json)) :
    Decoded (Option α) :=
  Option.join <$> decodeField? name (decodeOption decode) fields

/-- One of several things by its name: the name as a text, or as the only field of an object, with
null as its value. -/
def decodeName (choices : List α) (name : α → String) : Json → Decoded α
  | .string text => pick text
  -- The name may also be a field, as long as there is nothing in it.
  | .object [(text, content)] => do
    let choice ← pick text
    match content with
    | .null => return choice
    | other => throw (.unexpected other.found "unit")
  | .object _ => .error .notSingleField
  | other => .error (.unexpected other.found "string or map")
where
  pick (text : String) : Decoded α :=
    match choices.find? (name · = text) with
    | some choice => .ok choice
    | none => .error (.unknownName text (choices.map name))

end Json

end ResourceQuery
