import ResourceQuery.Filter.Wire
import ResourceQuery.Query.Wire

/-!
# Queries at every depth

Queries and relationships nest in each other, and so do filters and their groups. This module says
what is found in a query at any depth: its relationships (`Query.included`) and the arguments of its
conditions (`Query.args`). The induction principles `FilterNode.induction` and
`Relationship.induction` give for a nested value the property of all that it holds one level below.
-/

set_option autoImplicit false

namespace ResourceQuery

/-! ## Filters -/

namespace FilterNode

/-- What holds of joins and conditions, and of a group when it holds of its nodes, holds of all. -/
@[elab_as_elim]
theorem induction {motive : FilterNode → Prop} (join : ∀ how, motive (.join how))
    (condition : ∀ asked, motive (.condition asked))
    (group : ∀ nodes, (∀ node ∈ nodes, motive node) → motive (.group nodes)) (node : FilterNode) :
    motive node := by
  refine @FilterNode.rec motive (fun nodes => ∀ node ∈ nodes, motive node) join condition group
    (fun _ h => absurd h List.not_mem_nil) ?_ node
  intro head tail hhead htail node hnode
  rcases List.mem_cons.mp hnode with rfl | hmem
  · exact hhead
  · exact htail node hmem

mutual

/-- The arguments of all conditions in a node. -/
def args : FilterNode → List Arg
  | .join _ => []
  | .condition asked => asked.args
  | .group nodes => listArgs nodes

def listArgs : List FilterNode → List Arg
  | [] => []
  | node :: rest => node.args ++ listArgs rest

end

theorem mem_listArgs {arg : Arg} {nodes : List FilterNode} :
    arg ∈ listArgs nodes ↔ ∃ node ∈ nodes, arg ∈ node.args := by
  induction nodes with
  | nil => simp [listArgs]
  | cons node rest ih => simp [listArgs, ih]

theorem listToJson_eq_map (order : FieldOrder) (nodes : List FilterNode) :
    listToJson order nodes = nodes.map (toJson order) := by
  induction nodes with
  | nil => simp [listToJson]
  | cons node rest ih => simp [listToJson, ih]

end FilterNode

/-! ## Queries -/

mutual

/-- A relationship and all relationships of its query, at every depth. -/
def Relationship.family : Relationship → List Relationship
  | .bare name => [.bare name]
  | .scoped name columns => [.scoped name columns]
  | .nested name query => .nested name query :: Query.included query

/-- The relationships of a query, at every depth. -/
def Query.included : Query → List Relationship
  | ⟨_, _, none⟩ => []
  | ⟨_, _, some related⟩ => Relationship.families related

/-- Relationships and all relationships of their queries, at every depth. -/
def Relationship.families : List Relationship → List Relationship
  | [] => []
  | relationship :: rest => relationship.family ++ Relationship.families rest

end

/-- The arguments of the conditions of a query itself. -/
def Query.ownArgs (query : Query) : List Arg := (query.filters.map FilterNode.listArgs).getD []

/-- The arguments of the conditions of the query that a relationship carries. -/
def Relationship.ownArgs : Relationship → List Arg
  | .nested _ query => Query.ownArgs query
  | _ => []

/-- The arguments of all conditions below a relationship. -/
def Relationship.args (relationship : Relationship) : List Arg :=
  relationship.family.flatMap Relationship.ownArgs

/-- The arguments of all conditions of a query, at every depth. -/
def Query.args (query : Query) : List Arg :=
  query.ownArgs ++ query.included.flatMap Relationship.ownArgs

namespace Relationship

/-- What holds of relationships with a compact form, and of one with a query when it holds of the
relationships of that query, holds of all. -/
@[elab_as_elim]
theorem induction {motive : Relationship → Prop}
    (compact : ∀ relationship text, relationship.compact? = some text → motive relationship)
    (nested : ∀ name query,
      (∀ row ∈ query.relationships, ∀ relationship ∈ row, motive relationship) →
        motive (.nested name query))
    (relationship : Relationship) : motive relationship := by
  refine @Relationship.rec motive
    (fun query => ∀ row ∈ query.relationships, ∀ relationship ∈ row, motive relationship)
    (fun related => ∀ row ∈ related, ∀ relationship ∈ row, motive relationship)
    (fun row => ∀ relationship ∈ row, motive relationship) (fun name => compact _ _ rfl)
    (fun name columns => compact _ _ rfl) nested (fun _ _ _ h => h) ?_ ?_
    (fun _ h => absurd h List.not_mem_nil) ?_ relationship
  · rintro row ⟨⟩
  · rintro row h _ ⟨⟩
    exact h
  · intro head tail hhead htail relationship hmem
    rcases List.mem_cons.mp hmem with rfl | hmem
    · exact hhead
    · exact htail relationship hmem

theorem family_of_compact? {relationship : Relationship} {text : String}
    (h : relationship.compact? = some text) : relationship.family = [relationship] := by
  rcases relationship with name | ⟨name, columns⟩ | ⟨name, query⟩
  · rw [family]
  · rw [family]
  · cases h

theorem args_of_compact? {relationship : Relationship} {text : String}
    (h : relationship.compact? = some text) : relationship.args = [] := by
  rw [args, family_of_compact? h, List.flatMap_singleton]
  rcases relationship with name | ⟨name, columns⟩ | ⟨name, query⟩
  · rfl
  · rfl
  · cases h

theorem args_nested (name : String) (query : Query) :
    (nested name query).args = Query.args query := by
  rw [args, family, List.flatMap_cons, ownArgs, Query.args]

theorem mem_families {relationship : Relationship} {related : List Relationship} :
    relationship ∈ families related ↔ ∃ above ∈ related, relationship ∈ above.family := by
  induction related with
  | nil => simp [families]
  | cons above rest ih => simp [families, ih]

theorem listToJson_eq_map (order : FieldOrder) (related : List Relationship) :
    listToJson order related = related.map (toJson order) := by
  induction related with
  | nil => simp [listToJson]
  | cons relationship rest ih => simp [listToJson, ih]

end Relationship

namespace Query

theorem mem_included {relationship : Relationship} {query : Query} :
    relationship ∈ query.included
      ↔ ∃ row ∈ query.relationships, ∃ above ∈ row, relationship ∈ above.family := by
  obtain ⟨columns, filters, related⟩ := query
  cases related with
  | none => simp [included]
  | some row => simp [included, Relationship.mem_families]

/-- All relationships at every depth are those of the query, with all below them. -/
theorem forall_included_iff {p : Relationship → Prop} {query : Query} :
    (∀ relationship ∈ query.included, p relationship)
      ↔ ∀ row ∈ query.relationships, ∀ above ∈ row, ∀ relationship ∈ above.family,
          p relationship := by
  simp only [mem_included]
  constructor
  · intro h row hrow above habove relationship hmem
    exact h relationship ⟨row, hrow, above, habove, hmem⟩
  · rintro h relationship ⟨row, hrow, above, habove, hmem⟩
    exact h row hrow above habove relationship hmem

/-- All arguments at every depth are those of the query itself and those below its
relationships. -/
theorem forall_args_iff {p : Arg → Prop} {query : Query} :
    (∀ arg ∈ query.args, p arg)
      ↔ (∀ arg ∈ query.ownArgs, p arg)
        ∧ ∀ row ∈ query.relationships, ∀ above ∈ row, ∀ arg ∈ above.args, p arg := by
  have hbelow : (∀ arg ∈ query.included.flatMap Relationship.ownArgs, p arg)
      ↔ ∀ relationship ∈ query.included, ∀ arg ∈ relationship.ownArgs, p arg := by
    simp only [List.mem_flatMap]
    exact ⟨fun h relationship hr arg ha => h arg ⟨relationship, hr, ha⟩,
      fun h arg ⟨relationship, hr, ha⟩ => h relationship hr arg ha⟩
  rw [args, List.forall_mem_append, hbelow, forall_included_iff]
  simp only [Relationship.args, List.mem_flatMap]
  refine and_congr_right fun _ => ⟨?_, ?_⟩
  · rintro h row hrow above habove arg ⟨relationship, hr, ha⟩
    exact h row hrow above habove relationship hr arg ha
  · intro h row hrow above habove relationship hr arg ha
    exact h row hrow above habove arg ⟨relationship, hr, ha⟩

/-- A property of what is found at every depth, from one level to the next. -/
theorem forall_depth_iff {p : Relationship → Prop} {q : Arg → Prop} {query : Query} :
    ((∀ below ∈ query.included, p below) ∧ ∀ arg ∈ query.args, q arg)
      ↔ (∀ row ∈ query.relationships, ∀ above ∈ row,
          (∀ below ∈ above.family, p below) ∧ ∀ arg ∈ above.args, q arg)
        ∧ ∀ arg ∈ query.ownArgs, q arg := by
  rw [forall_included_iff, forall_args_iff]
  constructor
  · rintro ⟨hbelow, hown, hargs⟩
    exact ⟨fun row hrow above habove =>
      ⟨hbelow row hrow above habove, hargs row hrow above habove⟩, hown⟩
  · rintro ⟨h, hown⟩
    exact ⟨fun row hrow above habove => (h row hrow above habove).1, hown,
      fun row hrow above habove => (h row hrow above habove).2⟩

end Query

/-- The same for a relationship with a query, whose own place in the family must have the
property. -/
theorem Relationship.forall_depth_nested_iff {p : Relationship → Prop} {q : Arg → Prop}
    {name : String} {query : Query} (h : p (.nested name query)) :
    ((∀ below ∈ (nested name query).family, p below) ∧ ∀ arg ∈ (nested name query).args, q arg)
      ↔ (∀ below ∈ query.included, p below) ∧ ∀ arg ∈ query.args, q arg := by
  rw [family, args_nested, List.forall_mem_cons, and_iff_right h]

end ResourceQuery
