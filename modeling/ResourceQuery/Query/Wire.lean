import ResourceQuery.Filter.Wire

/-!
# Queries as data values

A query is an object with the parts that are present. A relationship with a compact form is that
text; one with a query of its own is an object with its name and the parts of the query. Reading
also accepts an array of the fields in their order, of which all that may be absent may be left out
at the end, and null for a part that is absent.
-/

set_option autoImplicit false

namespace ResourceQuery

/-! ## Writing -/

def optionalField (name : String) : Option Json → List (String × Json)
  | some value => [(name, value)]
  | none => []

def stringsToJson (texts : List String) : Json := .array (texts.map .string)

mutual

def Relationship.toJson (order : FieldOrder) : Relationship → Json
  | .bare name => .string name
  | .scoped name columns => .string (name ++ ":" ++ ",".intercalate columns)
  | .nested name query => order.object (("name", .string name) :: Query.fields order query)

/-- The fields of a query: its parts that are present. -/
def Query.fields (order : FieldOrder) : Query → List (String × Json)
  | ⟨columns, filters, none⟩ => Query.plainFields order columns filters
  | ⟨columns, filters, some related⟩ =>
    Query.plainFields order columns filters
      ++ [("relationships", .array (Relationship.listToJson order related))]

def Relationship.listToJson (order : FieldOrder) : List Relationship → List Json
  | [] => []
  | relationship :: rest =>
    relationship.toJson order :: Relationship.listToJson order rest

def Query.plainFields (order : FieldOrder) (columns : Option (List String))
    (filters : Option (List FilterNode)) : List (String × Json) :=
  optionalField "columns" (columns.map stringsToJson)
    ++ optionalField "filters" (filters.map fun nodes => .array (FilterNode.listToJson order nodes))

end

def Query.toJson (order : FieldOrder) (query : Query) : Json :=
  order.object (Query.fields order query)

/-! ## Reading -/

/-- An item of a sequence whose fields may be left out at the end. -/
def itemOr {α : Type} (decode : Json → Decoded α) (default : α) : Option Json → Decoded α
  | none => .ok default
  | some value => decode value

/-- The error of a sequence that goes on after its last element. -/
def checkLength (items : List Json) (most : Nat) : Decoded Unit :=
  if items.length ≤ most then .ok () else .error (.tooLong items.length)

/-- A query from the fields of an object; `related` is what its relationships are read as. -/
def Query.ofFields (fields : List (String × Json))
    (related : Decoded (Option (List Relationship))) : Decoded Query := do
  let columns ← Json.decodePart "columns" Json.decodeStrings fields
  let filters ← Json.decodePart "filters" FilterNode.filterOfJson fields
  let relationships ← related
  return ⟨columns, filters, relationships⟩

def Relationship.nestedOfFields (fields : List (String × Json))
    (related : Decoded (Option (List Relationship))) : Decoded (String × Query) := do
  let columns ← Json.decodePart "columns" Json.decodeStrings fields
  let filters ← Json.decodePart "filters" FilterNode.filterOfJson fields
  let name ← Json.decodeField? "name" Json.decodeString fields
  let relationships ← related
  match name with
  | some name => return (name, ⟨columns, filters, relationships⟩)
  | none => throw (.missingField "name")

def Relationship.nestedOfItems (items : List Json)
    (related : Decoded (Option (List Relationship))) : Decoded (String × Query) :=
  match items with
  | [] => .error (.tooShort 0 "struct NestedRelationship with 4 elements")
  | name :: rest => do
    let name ← Json.decodeString name
    let columns ← itemOr (Json.decodeOption Json.decodeStrings) none rest[0]?
    let filters ← itemOr (Json.decodeOption FilterNode.filterOfJson) none rest[1]?
    let relationships ← related
    checkLength items 4
    return (name, ⟨columns, filters, relationships⟩)

/-- A relationship with a query of its own, where any error means that it has no form at all. -/
def Relationship.ofNested : Decoded (String × Query) → Decoded Relationship
  | .ok (name, query) => .ok (.nested name query)
  | .error _ => .error (.noForm "RawRelationship")

mutual

/-- A relationship: a text in compact form, or else one with a query of its own. -/
def Relationship.ofJson : Json → Decoded Relationship
  | .string text =>
    match Relationship.ofCompact text with
    | .ok relationship => .ok relationship
    | .error error => .error (.notCompact error)
  | .object fields =>
    Relationship.ofNested (Relationship.nestedOfFields fields (Relationship.fieldOfJson fields))
  | .array items =>
    Relationship.ofNested (Relationship.nestedOfItems items (Relationship.itemOfJson items))
  | _ => .error (.noForm "RawRelationship")

def Relationship.eachOfJson : List Json → Decoded (List Relationship)
  | [] => .ok []
  | item :: rest => do
    let relationship ← Relationship.ofJson item
    let relationships ← Relationship.eachOfJson rest
    return relationship :: relationships

/-- Relationships, or null where there are none. -/
def Relationship.partOfJson : Json → Decoded (Option (List Relationship))
  | .null => .ok none
  | .array items => some <$> Relationship.eachOfJson items
  | other => .error (.unexpected other.found "a sequence")

def Relationship.fieldOfJson : List (String × Json) → Decoded (Option (List Relationship))
  | [] => .ok none
  | (name, value) :: rest =>
    if name = "relationships" then Relationship.partOfJson value else Relationship.fieldOfJson rest

/-- The relationships among the items of an array: the fourth. -/
def Relationship.itemOfJson : List Json → Decoded (Option (List Relationship))
  | _ :: _ :: _ :: related :: _ => Relationship.partOfJson related
  | _ => .ok none

end

def Relationship.nestedOfJson : Json → Decoded (String × Query)
  | .object fields => Relationship.nestedOfFields fields (Relationship.fieldOfJson fields)
  | .array items => Relationship.nestedOfItems items (Relationship.itemOfJson items)
  | other => .error (.unexpected other.found "struct NestedRelationship")

def Query.ofJson : Json → Decoded Query
  | .object fields => Query.ofFields fields (Relationship.fieldOfJson fields)
  | .array items => do
    let columns ← itemOr (Json.decodeOption Json.decodeStrings) none items[0]?
    let filters ← itemOr (Json.decodeOption FilterNode.filterOfJson) none items[1]?
    let relationships ← itemOr Relationship.partOfJson none items[2]?
    checkLength items 3
    return ⟨columns, filters, relationships⟩
  | other => .error (.unexpected other.found "struct BuiltQuery")

end ResourceQuery
