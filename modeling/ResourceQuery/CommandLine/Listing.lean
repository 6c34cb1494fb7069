import ResourceQuery.CommandLine.Paint
import ResourceQuery.QueryString

/-!
# Listings

How a query and a set of parameter names are shown to a reader: line by line, with two blanks more
for every level, and the query string at the end.
-/

set_option autoImplicit false

namespace ResourceQuery.CommandLine

/-- Two blanks a level. -/
def margin (depth : Nat) : String := String.ofList (List.replicate (2 * depth) ' ')

/-- The word between two conditions, in capitals. -/
def joinWord : Join → String
  | .and => "AND"
  | .or => "OR"

def conditionLine (colored : Bool) (depth : Nat) (condition : Condition) : String :=
  margin depth ++ paint colored .kind condition.kind.name ++ " "
    ++ paint colored .values (" ".intercalate (condition.args.map Arg.display))

mutual

def nodeLines (colored : Bool) (depth : Nat) : FilterNode → List String
  | .join how => [margin depth ++ paint colored .join (joinWord how)]
  | .condition asked => [conditionLine colored depth asked]
  | .group nodes =>
    (margin depth ++ "(") :: (filterLines colored (depth + 1) nodes ++ [margin depth ++ ")"])

def filterLines (colored : Bool) (depth : Nat) : List FilterNode → List String
  | [] => []
  | node :: rest => nodeLines colored depth node ++ filterLines colored depth rest

end

/-- A bullet and the name of a resource. -/
def bulletLine (colored : Bool) (depth : Nat) (name : String) : String :=
  margin depth ++ "• " ++ paint colored .item name

def nestedColumnsLines (colored : Bool) (depth : Nat) : Option (List String) → List String
  | none => []
  | some columns =>
    [margin (depth + 1) ++ paint colored .label "columns:" ++ " "
      ++ paint colored .values (", ".intercalate columns)]

def nestedFilterLines (colored : Bool) (depth : Nat) : Option (List FilterNode) → List String
  | none => []
  | some nodes =>
    (margin (depth + 1) ++ paint colored .label "filters:") :: filterLines colored (depth + 2) nodes

mutual

def relationshipLines (colored : Bool) (depth : Nat) : Relationship → List String
  | .bare name => [bulletLine colored depth name]
  | .scoped name columns =>
    [bulletLine colored depth name ++ " "
      ++ paint colored .values ("[" ++ ", ".intercalate columns ++ "]")]
  | .nested name ⟨columns, filters, none⟩ =>
    bulletLine colored depth name ::
      (nestedColumnsLines colored depth columns ++ nestedFilterLines colored depth filters)
  | .nested name ⟨columns, filters, some related⟩ =>
    bulletLine colored depth name ::
      (nestedColumnsLines colored depth columns ++ nestedFilterLines colored depth filters ++
        (margin (depth + 1) ++ paint colored .label "relationships:") ::
          relatedLines colored (depth + 2) related)

def relatedLines (colored : Bool) (depth : Nat) : List Relationship → List String
  | [] => []
  | related :: rest => relationshipLines colored depth related ++ relatedLines colored depth rest

end

/-- The lines for the parts of a query, each under its label. -/
def partLines (colored : Bool) (query : Query) : List String :=
  let label := fun (text : String) => margin 1 ++ paint colored .label text
  let part := fun {α : Type} (text : String) (lines : α → List String) (content : Option α) =>
    (content.map fun content => label text :: lines content).getD []
  part "Columns:" (·.map (bulletLine colored 2)) query.columns
    ++ part "Filters:" (filterLines colored 2) query.filters
    ++ part "Relationships:" (relatedLines colored 2) query.relationships

def queryTitle (colored : Bool) : List String := [paint colored .title "Query Explanation", ""]

def emptyQueryLines (colored : Bool) : List String := [paint colored .label "(empty query)"]

def queryStringTitle (colored : Bool) : List String :=
  ["", paint colored .heading "Query string:"]

def queryStringLine (colored : Bool) (queryString : String) : List String :=
  [margin 1 ++ paint colored .item queryString]

/-- The width of the first column of the table of names. -/
def nameWidth : Nat := 15

/-- A text with blanks up to a width. -/
def padded (width : Nat) (text : String) : String :=
  text ++ String.ofList (List.replicate (width - text.length) ' ')

def namesLines (colored : Bool) (names : Names) : List String :=
  let row := fun (part name : String) =>
    margin 1 ++ paint colored .rowName (padded nameWidth part) ++ " " ++ paint colored .values name
  [paint colored .title "Parameter names", "", row "columns" names.columns,
    row "filters" names.filters, row "relationships" names.relationships]

end ResourceQuery.CommandLine
