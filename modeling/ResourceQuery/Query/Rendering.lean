import ResourceQuery.Json.Encoding
import ResourceQuery.Params

/-!
# Rendering parameters

To become a parameter, a part of a query offers its content and is encoded. Encoding may fail in
general, so rendering gives the parameters or the first error.
-/

set_option autoImplicit false

namespace ResourceQuery

/-! ## Contents -/

def Arg.content : Arg → Content
  | .bool value => .bool value
  | .int value => .int value
  | .float value => .float value
  | .string value => .text value

def Condition.content (condition : Condition) : Content :=
  .fields [("type", .text condition.kind.name), ("args", .row (condition.args.map Arg.content))]

mutual

def FilterNode.content : FilterNode → Content
  | .join how => .text how.name
  | .condition asked => asked.content
  | .group nodes => .row (FilterNode.contents nodes)

def FilterNode.contents : List FilterNode → List Content
  | [] => []
  | node :: rest => node.content :: FilterNode.contents rest

end

/-- A field for a part that may be absent, as a content. -/
def contentField {α : Type} (name : String) (content : α → Content) :
    Option α → List (String × Content)
  | some part => [(name, content part)]
  | none => []

def stringsContent (texts : List String) : Content := .row (texts.map .text)

def FilterNode.filterContent (nodes : List FilterNode) : Content :=
  .row (FilterNode.contents nodes)

/-- The fields for columns and filters, as contents. -/
def Query.plainContents (columns : Option (List String)) (filters : Option (List FilterNode)) :
    List (String × Content) :=
  contentField "columns" stringsContent columns
    ++ contentField "filters" FilterNode.filterContent filters

mutual

def Relationship.content : Relationship → Content
  | .bare name => .text name
  | .scoped name columns => .text (name ++ ":" ++ ",".intercalate columns)
  | .nested name query => .fields (("name", .text name) :: Query.contents query)

/-- The fields of a query as contents: its parts that are present. -/
def Query.contents : Query → List (String × Content)
  | ⟨columns, filters, none⟩ => Query.plainContents columns filters
  | ⟨columns, filters, some related⟩ =>
    Query.plainContents columns filters ++ [("relationships", .row (Relationship.contents related))]

def Relationship.contents : List Relationship → List Content
  | [] => []
  | relationship :: rest => relationship.content :: Relationship.contents rest

end

def Relationship.relatedContent (related : List Relationship) : Content :=
  .row (Relationship.contents related)

/-! ## Parameters -/

/-- The data value of a part that may be absent, or the error of its encoding. -/
def encodePart? {α : Type} (content : α → Content) : Option α → Encoded (Option Json)
  | some part => some <$> (content part).toJson
  | none => .ok none

/-- The parameters of a query, or the first error. -/
def Query.renderParams (names : Names) (query : Query) : Encoded Params := do
  let filters ← encodePart? FilterNode.filterContent query.filters
  let relationships ← encodePart? Relationship.relatedContent query.relationships
  return Params.set? names.relationships relationships <| Params.set? names.filters filters <|
    Params.set? names.columns (query.columns.map stringsToJson) []

end ResourceQuery
