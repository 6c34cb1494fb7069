import ResourceQuery.Filter

/-!
# Queries

A query asks for columns, filters the records by a row of filter nodes, and includes related
resources; each part may be absent. A related resource is included whole, with some of its columns,
or with a query of its own, so queries and relationships nest in each other.
-/

set_option autoImplicit false

namespace ResourceQuery

/-- The parts of a query whose relationships are of type `ρ`. -/
structure Parts (ρ : Type) where
  columns : Option (List String)
  filters : Option (List FilterNode)
  relationships : Option (List ρ)

/-- A related resource. -/
inductive Relationship
  | bare (name : String)
  /-- The resource with some of its columns. -/
  | scoped (name : String) (columns : List String)
  /-- The resource with a query of its own. -/
  | nested (name : String) (query : Parts Relationship)

abbrev Query := Parts Relationship

def Query.isEmpty (query : Query) : Bool :=
  query.columns.isNone && query.filters.isNone && query.relationships.isNone

def Relationship.resource : Relationship → String
  | .bare name => name
  | .scoped name _ => name
  | .nested name _ => name

/-! ## Equality -/

def sameOption {α : Type} (same : α → α → Bool) : Option α → Option α → Bool
  | none, none => true
  | some a, some b => same a b
  | _, _ => false

mutual

/-- Equality of relationships, floats compared as numbers. -/
def Relationship.same : Relationship → Relationship → Bool
  | .bare a, .bare b => a == b
  | .scoped a as, .scoped b bs => a == b && as == bs
  | .nested a p, .nested b q => a == b && Query.same p q
  | _, _ => false

/-- Equality of queries, floats compared as numbers. -/
def Query.same : Query → Query → Bool
  | ⟨columns, filters, none⟩, ⟨columns', filters', none⟩ =>
    columns == columns' && sameOption FilterNode.sameAll filters filters'
  | ⟨columns, filters, some related⟩, ⟨columns', filters', some related'⟩ =>
    columns == columns' && sameOption FilterNode.sameAll filters filters'
      && Relationship.sameAll related related'
  | _, _ => false

def Relationship.sameAll : List Relationship → List Relationship → Bool
  | [], [] => true
  | a :: as, b :: bs => a.same b && Relationship.sameAll as bs
  | _, _ => false

end

end ResourceQuery
