import ResourceQuery.Json.Decoding

/-!
# Filters as data values

A join is its name, a condition an object with its kind under `type` and its arguments under `args`,
a group an array. No tag tells the three apart; the shapes do. Reading accepts more spellings than
writing produces: a name may also be the only field of an object, with null as its value, and a
condition may be an array of its kind and its arguments.
-/

set_option autoImplicit false

namespace ResourceQuery

/-- In which order the fields of an object are written: as they are declared, or ascending. -/
inductive FieldOrder
  | declared
  | ascending
  deriving DecidableEq, Repr

/-- An object with the given fields, which are listed as they are declared. -/
def FieldOrder.object (order : FieldOrder) (fields : List (String × Json)) : Json :=
  match order with
  | .declared => .object fields
  | .ascending => .object (Ascending.ofPairs fields)

/-! ## Writing -/

/-- An argument as a data value. A float that is not finite is null. -/
def Arg.toJson : Arg → Json
  | .bool value => .bool value
  | .int value => .number (.int value.toInt)
  | .float value => if value.isFinite then .number (.float value) else .null
  | .string value => .string value

def Condition.toJson (order : FieldOrder) (condition : Condition) : Json :=
  order.object
    [("type", .string condition.kind.name), ("args", .array (condition.args.map Arg.toJson))]

mutual

def FilterNode.toJson (order : FieldOrder) : FilterNode → Json
  | .join how => .string how.name
  | .condition asked => asked.toJson order
  | .group nodes => .array (FilterNode.listToJson order nodes)

def FilterNode.listToJson (order : FieldOrder) : List FilterNode → List Json
  | [] => []
  | node :: rest => node.toJson order :: FilterNode.listToJson order rest

end

/-! ## Reading -/

def fitsInt64 (value : Int) : Bool := -9223372036854775808 ≤ value && value ≤ 9223372036854775807

/-- An argument. A whole number that needs the 64th bit becomes a float. -/
def Arg.ofJson? : Json → Option Arg
  | .bool value => some (.bool value)
  | .number (.int value) =>
    if fitsInt64 value then some (.int (Int64.ofInt value))
    else some (.float value.toNat.toUInt64.toFloat)
  | .number (.float value) => some (.float value)
  | .string value => some (.string value)
  | _ => none

def Arg.ofJson (value : Json) : Decoded Arg :=
  match Arg.ofJson? value with
  | some arg => .ok arg
  | none => .error (.noForm "Arg")

def Join.ofJson : Json → Decoded Join := Json.decodeName Join.all Join.name

def FilterKind.ofJson : Json → Decoded FilterKind := Json.decodeName FilterKind.all FilterKind.name

def Condition.argsOfJson : Json → Decoded (List Arg) := Json.decodeList Arg.ofJson

def Condition.ofFields (fields : List (String × Json)) : Decoded Condition := do
  let args ← Json.decodeField? "args" argsOfJson fields
  let kind ← Json.decodeField? "type" FilterKind.ofJson fields
  match kind, args with
  | none, _ => throw (.missingField "type")
  | some _, none => throw (.missingField "args")
  | some kind, some args => return ⟨kind, args⟩

def Condition.ofItems (items : List Json) : Decoded Condition :=
  let expected := "struct Condition with 2 elements"
  match items with
  | [] => .error (.tooShort 0 expected)
  | [kind] => do
    let _ ← FilterKind.ofJson kind
    throw (.tooShort 1 expected)
  | kind :: args :: rest => do
    let kind ← FilterKind.ofJson kind
    let args ← argsOfJson args
    if rest.isEmpty then return ⟨kind, args⟩ else throw (.tooLong items.length)

def Condition.ofJson : Json → Decoded Condition
  | .object fields => Condition.ofFields fields
  | .array items => Condition.ofItems items
  | other => .error (.unexpected other.found "struct Condition")

/-- An element of a filter that is not a group. -/
def FilterNode.leafOfJson? (value : Json) : Option FilterNode :=
  match Join.ofJson value with
  | .ok how => some (.join how)
  | .error _ =>
    match Condition.ofJson value with
    | .ok asked => some (.condition asked)
    | .error _ => none

mutual

/-- An element of a filter: a join if it can be one, else a condition, else a group. -/
def FilterNode.ofJson? : Json → Option FilterNode
  | .array items =>
    match FilterNode.leafOfJson? (.array items) with
    | some leaf => some leaf
    | none => (FilterNode.listOfJson? items).map .group
  | other => FilterNode.leafOfJson? other

def FilterNode.listOfJson? : List Json → Option (List FilterNode)
  | [] => some []
  | item :: rest =>
    match FilterNode.ofJson? item, FilterNode.listOfJson? rest with
    | some node, some nodes => some (node :: nodes)
    | _, _ => none

end

def FilterNode.ofJson (value : Json) : Decoded FilterNode :=
  match FilterNode.ofJson? value with
  | some node => .ok node
  | none => .error (.noForm "FilterNode")

def FilterNode.filterOfJson : Json → Decoded (List FilterNode)
  | .array items =>
    match FilterNode.listOfJson? items with
    | some nodes => .ok nodes
    | none => .error (.noForm "FilterNode")
  | other => .error (.unexpected other.found "a sequence")

end ResourceQuery
