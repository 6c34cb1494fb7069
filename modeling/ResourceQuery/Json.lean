import ResourceQuery.Ascending
import ResourceQuery.Decimal.Layout

/-!
# Data values

The values of the interchange format: null, truth values, numbers, text, arrays and objects. A
number is either a whole number or a float, and the two are never confused: `1` and `1.0` are
different values. The fields of an object that was read are in ascending order of their names, with
no name twice (`Json.Ordered`); an object that is only written may list its fields in any order.
-/

set_option autoImplicit false

namespace ResourceQuery

inductive Number
  | int (value : Int)
  | float (value : Float)

inductive Json
  | null
  | bool (value : Bool)
  | number (value : Number)
  | string (value : String)
  | array (items : List Json)
  | object (fields : List (String × Json))
  deriving Inhabited

/-- How the format writes floats: in place from the fifth decimal place up to sixteen digits, a
whole number with a fraction of zero, ties to the even digit. -/
def Number.layout : Decimal.Layout :=
  { inPlace := fun power => -5 ≤ power && power ≤ 15, wholeMark := ['.', '0'], tie := .even }

/-- A number as text. The format has no infinities and writes null for them. -/
def Number.text : Number → String
  | .int value => toString value
  | .float value => if value.isFinite then Number.layout.render value else "null"

/-- A number that a text can give: a whole number fits in 64 bits, signed if it is negative, and a
float is finite. -/
def Number.Readable : Number → Prop
  | .int value => -9223372036854775808 ≤ value ∧ value ≤ 18446744073709551615
  | .float value => value.isFinite = true

namespace Json

/-- The value of a field, if this is an object that has it. -/
def field? (name : String) : Json → Option Json
  | .object fields => Ascending.get? name fields
  | _ => none

def fields? : Json → Option (List (String × Json))
  | .object fields => some fields
  | _ => none

/-! ## Values as they are read

`Ordered` says what holds of every value that comes from a text: its numbers are readable, and the
fields of every object in it ascend. -/

mutual

/-- A value that a text can give. -/
def Ordered : Json → Prop
  | .number value => value.Readable
  | .array items => OrderedItems items
  | .object fields => Ascending.Keys fields ∧ OrderedFields fields
  | _ => True

def OrderedItems : List Json → Prop
  | [] => True
  | item :: rest => item.Ordered ∧ OrderedItems rest

def OrderedFields : List (String × Json) → Prop
  | [] => True
  | (_, value) :: rest => value.Ordered ∧ OrderedFields rest

end

end Json

end ResourceQuery
