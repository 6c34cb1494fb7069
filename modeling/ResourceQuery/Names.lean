import ResourceQuery.Json.Decoding

/-!
# Parameter names

The receiver decides what the three parameters of a request are called. Names can be used when none
of them is empty and no two are equal; that is what `Names.check` decides.
-/

set_option autoImplicit false

namespace ResourceQuery

/-- The names of the parameters for the parts of a query. -/
structure Names where
  columns : String
  filters : String
  relationships : String
  deriving DecidableEq, Repr

/-- Why names cannot be used. -/
inductive NamesError
  | empty
  | notDistinct (names : Names)
  deriving DecidableEq, Repr

def NamesError.message : NamesError → String
  | .empty => "parameter names must not be empty"
  | .notDistinct names =>
    "parameter names must be distinct (columns='" ++ names.columns ++ "', filters='"
      ++ names.filters ++ "', relationships='" ++ names.relationships ++ "')"

namespace Names

def standard : Names := ⟨"columns", "filters", "relationships"⟩

def areNonempty (names : Names) : Bool :=
  names.columns ≠ "" && names.filters ≠ "" && names.relationships ≠ ""

def areDistinct (names : Names) : Bool :=
  names.columns ≠ names.filters && names.columns ≠ names.relationships
    && names.filters ≠ names.relationships

/-- The names, if they can be used. -/
def check (names : Names) : Except NamesError Names :=
  if !names.areNonempty then .error .empty
  else if !names.areDistinct then .error (.notDistinct names)
  else .ok names

/-- Checking changes nothing, and it passes just the names that can be used. -/
theorem check_eq_ok_iff {names checked : Names} :
    names.check = .ok checked
      ↔ names.areNonempty = true ∧ names.areDistinct = true ∧ names = checked := by
  unfold check
  cases names.areNonempty with
  | false => simp
  | true =>
    cases names.areDistinct with
    | false => simp
    | true => simp

def toJson (names : Names) : Json :=
  .object [("columns", .string names.columns), ("filters", .string names.filters),
    ("relationships", .string names.relationships)]

/-- Names from a data value: an object, or an array of the names in their order. A name that is
left out is the standard one. -/
def ofJson : Json → Decoded Names
  | .object fields => do
    let columns ← Json.decodeField? "columns" Json.decodeString fields
    let filters ← Json.decodeField? "filters" Json.decodeString fields
    let relationships ← Json.decodeField? "relationships" Json.decodeString fields
    return ⟨columns.getD standard.columns, filters.getD standard.filters,
      relationships.getD standard.relationships⟩
  | .array items => do
    -- Items after the third are refused, once the first three are texts.
    let names ← Json.decodeEach Json.decodeString (items.take 3)
    if items.length > 3 then throw (.tooLong items.length)
    return ⟨names[0]?.getD standard.columns, names[1]?.getD standard.filters,
      names[2]?.getD standard.relationships⟩
  | other => .error (.unexpected other.found "struct ParamNames")

end Names

end ResourceQuery
