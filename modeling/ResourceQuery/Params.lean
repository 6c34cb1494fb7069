import ResourceQuery.Names
import ResourceQuery.Query.Wire

/-!
# Request parameters

A query becomes the parameters of a request when its parts are put under the names that the
receiver expects. The parameters are the fields of an object, in ascending order of their names.
Reading takes the three named parameters and ignores all others. A relationship is read from its
compact form, so one whose name has a colon or a comma in it does not come back as it was sent.
-/

set_option autoImplicit false

namespace ResourceQuery

/-- Parameters by name, ascending. -/
abbrev Params := List (String × Json)

namespace Params

/-- Sets a parameter, if there is a value for it. -/
def set? (name : String) (value : Option Json) (params : Params) : Params :=
  match value with
  | some value => Ascending.insert name value params
  | none => params

def ofFilter (nodes : List FilterNode) : Json := .array (FilterNode.listToJson .ascending nodes)

def ofRelationships (related : List Relationship) : Json :=
  .array (Relationship.listToJson .ascending related)

end Params

def Query.toParams (names : Names) (query : Query) : Params :=
  Params.set? names.relationships (query.relationships.map Params.ofRelationships) <|
  Params.set? names.filters (query.filters.map Params.ofFilter) <|
  Params.set? names.columns (query.columns.map stringsToJson) []

/-- The query that parameters stand for, or the first error. -/
def Query.ofParams (names : Names) (params : Params) : Decoded Query := do
  let columns ← Json.decodeField? names.columns Json.decodeStrings params
  let filters ← Json.decodeField? names.filters FilterNode.filterOfJson params
  let relationships ← Json.decodeField? names.relationships
    (Json.decodeList Relationship.ofJson) params
  return ⟨columns, filters, relationships⟩

end ResourceQuery
