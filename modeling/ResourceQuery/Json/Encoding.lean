import ResourceQuery.Json

/-!
# Encoding as data values

A value offers itself for encoding as a content: plain values, rows, and tables of entries whose
keys are contents themselves. The format has texts as keys only, so a content with another key may
have no data value. `Content.toJson` is the data value of a content, or the reason why there is
none.
-/

set_option autoImplicit false

namespace ResourceQuery

/-- What a value is made of, as it offers itself for encoding. -/
inductive Content
  | null
  | bool (value : Bool)
  | int (value : Int64)
  | float (value : Float)
  | text (value : String)
  | row (items : List Content)
  | table (entries : List (Content × Content))

/-- Why a content has no data value. -/
inductive EncodeError
  /-- Null, a row or a table is a key. -/
  | keyNotText
  /-- A key is an infinity or not a number. -/
  | keyNotFinite
  deriving DecidableEq, Repr

def EncodeError.message : EncodeError → String
  | .keyNotText => "key must be a string"
  | .keyNotFinite => "float key must be finite (got NaN or +/-inf)"

abbrev Encoded (α : Type) := Except EncodeError α

namespace Content

/-- A table whose keys are texts. -/
def fields (fields : List (String × Content)) : Content :=
  .table (fields.map fun field => (.text field.1, field.2))

/-- The name that a key becomes. -/
def toName : Content → Encoded String
  | .bool value => .ok (toString value)
  | .int value => .ok (toString value.toInt)
  | .float value => if value.isFinite then .ok (Number.float value).text else .error .keyNotFinite
  | .text value => .ok value
  | _ => .error .keyNotText

mutual

/-- The data value of a content. A float that is not finite is null. -/
def toJson : Content → Encoded Json
  | .null => .ok .null
  | .bool value => .ok (.bool value)
  | .int value => .ok (.number (.int value.toInt))
  | .float value => .ok (if value.isFinite then .number (.float value) else .null)
  | .text value => .ok (.string value)
  | .row items => .array <$> itemsToJson items
  | .table entries => .object <$> entriesToJson [] entries

def itemsToJson : List Content → Encoded (List Json)
  | [] => .ok []
  | item :: rest => do
    let value ← item.toJson
    let values ← itemsToJson rest
    return value :: values

/-- The given fields and those that entries become, or the first error. A later entry replaces an
earlier one with its key. -/
def entriesToJson (written : List (String × Json)) :
    List (Content × Content) → Encoded (List (String × Json))
  | [] => .ok written
  | (key, content) :: rest => do
    let name ← key.toName
    let value ← content.toJson
    entriesToJson (Ascending.insert name value written) rest

end

end Content

end ResourceQuery
