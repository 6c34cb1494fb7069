import ResourceQuery.Filter.Builder
import ResourceQuery.Query

/-!
# Building queries

A builder collects columns, filter nodes and relationships. Selecting columns replaces those
selected before; filters and relationships are added. A relationship that is given a query of its
own is kept in compact form when that query has columns and nothing else. The built query leaves
out every part that is empty. `QueryOp` is a step as a value, so that a query can be described by a
program.
-/

set_option autoImplicit false

namespace ResourceQuery

/-- A remark about a relationship that may not be read back as it was meant. -/
inductive QueryWarning
  /-- In compact form the name would end at a colon or a comma in it. -/
  | ambiguousName (name : String)
  deriving DecidableEq, Repr

def QueryWarning.text : QueryWarning → String
  | .ambiguousName name => "Relationship name '" ++ name ++ "' is ambiguous in compact form"

/-- What has been collected so far, and the warnings about it. -/
structure QueryBuilder where
  columns : List String
  filters : FilterBuilder
  relationships : List Relationship
  warnings : List QueryWarning

/-- A step of building a query. -/
inductive QueryOp
  /-- Select these columns and no others. -/
  | select (columns : List String)
  | filter (op : FilterOp)
  | related (name : String)
  /-- Include a resource with some of its columns. -/
  | relatedColumns (name : String) (columns : List String)
  /-- Include a resource with a query of its own. -/
  | relatedQuery (name : String) (ops : List QueryOp)
  /-- Take steps only if a condition holds. -/
  | when (holds : Bool) (ops : List QueryOp)
  deriving Inhabited

/-! ## Steps by name -/

namespace QueryOp

section Conditions

variable (args : List Arg)

def comparison : QueryOp := .filter (.comparison args)

def isNull : QueryOp := .filter (.isNull args)

def isNotNull : QueryOp := .filter (.isNotNull args)

def relation : QueryOp := .filter (.relation args)

def orComparison : QueryOp := .filter (.orComparison args)

def orIsNull : QueryOp := .filter (.orIsNull args)

def orIsNotNull : QueryOp := .filter (.orIsNotNull args)

def orRelation : QueryOp := .filter (.orRelation args)

end Conditions

def andGroup (ops : List FilterOp) : QueryOp := .filter (.andGroup ops)

def orGroup (ops : List FilterOp) : QueryOp := .filter (.orGroup ops)

/-- Take steps only if a condition holds, which is asked only now. -/
def whenAsked (holds : Unit → Bool) (ops : List QueryOp) : QueryOp := .when (holds ()) ops

end QueryOp

/-! ## Parts and warnings -/

/-- A list as a part of a query: absent when it is empty. -/
def nonEmpty? {α : Type} (items : List α) : Option (List α) :=
  if items.isEmpty then none else some items

/-- A name that the compact form cannot tell from a name with columns. -/
def isAmbiguous (name : String) : Bool := name.toList.any fun c => c = ':' || c = ','

/-- The warnings about a name in compact form. -/
def nameWarnings (name : String) : List QueryWarning :=
  if isAmbiguous name then [.ambiguousName name] else []

/-- A relationship with a query of its own, in compact form if the query has columns only. -/
def Relationship.ofQuery (name : String) : Query → Relationship
  | ⟨some columns, none, none⟩ => .scoped name columns
  | query => .nested name query

/-- The warnings about a relationship with a query of its own. -/
def Relationship.queryWarnings (name : String) : Query → List QueryWarning
  | ⟨some _, none, none⟩ => nameWarnings name
  | _ => []

namespace QueryBuilder

def empty : QueryBuilder := ⟨[], .empty, [], []⟩

def build (builder : QueryBuilder) : Query :=
  ⟨nonEmpty? builder.columns, nonEmpty? builder.filters.nodes, nonEmpty? builder.relationships⟩

def select (builder : QueryBuilder) (columns : List String) : QueryBuilder :=
  { builder with columns }

def filter (builder : QueryBuilder) (op : FilterOp) : QueryBuilder :=
  { builder with filters := op.apply builder.filters }

/-- Adds a relationship and the warnings about it. -/
def relate (builder : QueryBuilder) (relationship : Relationship) (warnings : List QueryWarning) :
    QueryBuilder :=
  { builder with
    relationships := builder.relationships ++ [relationship]
    warnings := builder.warnings ++ warnings }

def related (builder : QueryBuilder) (name : String) : QueryBuilder :=
  builder.relate (.bare name) []

def relatedColumns (builder : QueryBuilder) (name : String) (columns : List String) :
    QueryBuilder :=
  builder.relate (.scoped name columns) (nameWarnings name)

/-- Includes a resource with the query that another builder has collected. The warnings of that
builder come first. -/
def relatedQuery (builder : QueryBuilder) (name : String) (scope : QueryBuilder) : QueryBuilder :=
  builder.relate (.ofQuery name scope.build)
    (scope.warnings ++ Relationship.queryWarnings name scope.build)

end QueryBuilder

mutual

def QueryOp.apply (builder : QueryBuilder) : QueryOp → QueryBuilder
  | .select columns => builder.select columns
  | .filter op => builder.filter op
  | .related name => builder.related name
  | .relatedColumns name columns => builder.relatedColumns name columns
  | .relatedQuery name ops => builder.relatedQuery name (QueryOp.applyAll .empty ops)
  | .when holds ops => if holds then QueryOp.applyAll builder ops else builder

def QueryOp.applyAll (builder : QueryBuilder) : List QueryOp → QueryBuilder
  | [] => builder
  | op :: rest => QueryOp.applyAll (op.apply builder) rest

end

/-- What a program collects. -/
def QueryOp.run (ops : List QueryOp) : QueryBuilder := QueryOp.applyAll .empty ops

end ResourceQuery
