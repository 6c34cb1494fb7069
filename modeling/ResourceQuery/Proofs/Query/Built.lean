import ResourceQuery.Proofs.Query.Depth
import ResourceQuery.Query.Builder

/-!
# Queries that programs build

A program adds relationships in compact form, and relationships with the query that another program
has built, so a property of all relationships of a built query needs these cases only
(`QueryOp.forall_relationships`). `Query.scopes` are the queries found in a query at every depth.
Main statement: no part of any of them is empty in a built query
(`QueryOp.partsFilled_of_mem_scopes`).
-/

set_option autoImplicit false

namespace ResourceQuery

/-! ## Queries in a query -/

/-- The query that a relationship carries. -/
def Relationship.scope? : Relationship → Option Query
  | .nested _ query => some query
  | _ => none

/-- A query, and the queries of the relationships in it at every depth. -/
def Query.scopes (query : Query) : List Query :=
  query :: query.included.filterMap Relationship.scope?

/-- The queries that are found in a relationship at every depth. -/
def Relationship.scopes (relationship : Relationship) : List Query :=
  relationship.family.filterMap scope?

theorem Relationship.scopes_bare (name : String) : (bare name).scopes = [] := by
  rw [scopes, family]
  rfl

theorem Relationship.scopes_scoped (name : String) (columns : List String) :
    (Relationship.scoped name columns).scopes = [] := by
  rw [scopes, family]
  rfl

theorem Relationship.scopes_nested (name : String) (query : Query) :
    (nested name query).scopes = query.scopes := by
  rw [scopes, family]
  rfl

theorem Query.mem_scopes {query scope : Query} :
    scope ∈ query.scopes
      ↔ scope = query ∨ ∃ row ∈ query.relationships, ∃ above ∈ row, scope ∈ above.scopes := by
  simp only [scopes, Relationship.scopes, List.mem_cons, List.mem_filterMap, mem_included]
  refine or_congr_right ⟨?_, ?_⟩
  · rintro ⟨relationship, ⟨row, hrow, above, habove, hmem⟩, hscope⟩
    exact ⟨row, hrow, above, habove, relationship, hmem, hscope⟩
  · rintro ⟨row, hrow, above, habove, relationship, hmem, hscope⟩
    exact ⟨relationship, ⟨row, hrow, above, habove, hmem⟩, hscope⟩

/-! ## Relationships that programs add -/

namespace QueryOp

/-- What holds of simple steps, and of steps with a program when it holds of the steps of that
program, holds of all. -/
@[elab_as_elim]
theorem induction {motive : QueryOp → Prop} (select : ∀ columns, motive (.select columns))
    (filter : ∀ op, motive (.filter op)) (related : ∀ name, motive (.related name))
    (relatedColumns : ∀ name columns, motive (.relatedColumns name columns))
    (relatedQuery : ∀ name ops, (∀ op ∈ ops, motive op) → motive (.relatedQuery name ops))
    (when : ∀ holds ops, (∀ op ∈ ops, motive op) → motive (.when holds ops)) (op : QueryOp) :
    motive op := by
  refine @QueryOp.rec motive (fun ops => ∀ op ∈ ops, motive op) select filter related relatedColumns
    relatedQuery when (fun _ h => absurd h List.not_mem_nil) ?_ op
  intro head tail hhead htail
  exact List.forall_mem_cons.mpr ⟨hhead, htail⟩

/-- What every step of a program keeps, the program keeps. -/
theorem applyAll_induction {p : QueryBuilder → Prop} {ops : List QueryOp}
    (h : ∀ op ∈ ops, ∀ builder, p builder → p (op.apply builder)) {builder : QueryBuilder}
    (hbuilder : p builder) : p (applyAll builder ops) := by
  induction ops generalizing builder with
  | nil => exact hbuilder
  | cons op rest ih =>
      obtain ⟨hop, hrest⟩ := List.forall_mem_cons.mp h
      exact ih hrest (hop builder hbuilder)

/-- What holds of relationships in compact form, and of one with the query of a builder when it
holds of the relationships in that builder, holds of all relationships that a program adds. -/
theorem forall_relationships {p : Relationship → Prop} (hbare : ∀ name, p (.bare name))
    (hscoped : ∀ name columns, p (.scoped name columns))
    (hquery : ∀ name (builder : QueryBuilder), (∀ relationship ∈ builder.relationships,
      p relationship) → p (.ofQuery name builder.build)) (ops : List QueryOp) :
    ∀ relationship ∈ (run ops).relationships, p relationship := by
  have hempty : ∀ relationship ∈ QueryBuilder.empty.relationships, p relationship :=
    fun _ hmem => absurd hmem List.not_mem_nil
  have hop : ∀ (op : QueryOp) (builder : QueryBuilder),
      (∀ relationship ∈ builder.relationships, p relationship) →
        ∀ relationship ∈ (op.apply builder).relationships, p relationship := by
    intro op
    induction op using QueryOp.induction with
    | select columns => exact fun _ h => h
    | filter op => exact fun _ h => h
    | related name =>
        exact fun _ h => List.forall_mem_append.mpr ⟨h, List.forall_mem_singleton.mpr (hbare name)⟩
    | relatedColumns name columns =>
        exact fun _ h =>
          List.forall_mem_append.mpr ⟨h, List.forall_mem_singleton.mpr (hscoped name columns)⟩
    | relatedQuery name ops ih =>
        intro builder h
        have hscope := applyAll_induction ih hempty
        exact List.forall_mem_append.mpr ⟨h, List.forall_mem_singleton.mpr (hquery name _ hscope)⟩
    | when holds ops ih =>
        intro builder h
        rw [apply]
        split
        · exact applyAll_induction ih h
        · exact h
  exact applyAll_induction (fun op _ => hop op) hempty

end QueryOp

/-! ## Parts that are present -/

/-- No part that is present is empty. -/
structure Query.PartsFilled (query : Query) : Prop where
  columns : ∀ row ∈ query.columns, row ≠ []
  filters : ∀ nodes ∈ query.filters, nodes ≠ []
  relationships : ∀ row ∈ query.relationships, row ≠ []

theorem mem_nonEmpty? {α : Type} {items row : List α} :
    row ∈ nonEmpty? items ↔ row = items ∧ row ≠ [] := by
  cases items with
  | nil => simp [nonEmpty?]
  | cons first rest =>
      rw [nonEmpty?, List.isEmpty_cons, if_neg Bool.false_ne_true, Option.mem_some_iff, eq_comm]
      exact (and_iff_left_of_imp fun h => h ▸ List.cons_ne_nil _ _).symm

theorem QueryBuilder.partsFilled_build (builder : QueryBuilder) : builder.build.PartsFilled :=
  ⟨fun _ h => (mem_nonEmpty?.mp h).2, fun _ h => (mem_nonEmpty?.mp h).2,
    fun _ h => (mem_nonEmpty?.mp h).2⟩

/-- A relationship with a query of its own is kept in compact form if the query has columns only. -/
theorem Relationship.ofQuery_cases (name : String) (query : Query) :
    (∃ columns, query = ⟨some columns, none, none⟩ ∧ ofQuery name query = .scoped name columns)
      ∨ ofQuery name query = .nested name query := by
  rcases query with ⟨_ | columns, _ | filters, _ | related⟩
  case some.none.none => exact .inl ⟨columns, rfl, rfl⟩
  all_goals exact .inr rfl

/-- It has at most the queries in that query. -/
theorem Relationship.mem_scopes_ofQuery {name : String} {query scope : Query}
    (h : scope ∈ (ofQuery name query).scopes) : scope ∈ query.scopes := by
  rcases ofQuery_cases name query with ⟨columns, -, heq⟩ | heq
  · rw [heq, scopes_scoped] at h
    cases h
  · rwa [heq, scopes_nested] at h

/-- **No part is empty in a built query**, at any depth. -/
theorem QueryOp.partsFilled_of_mem_scopes {ops : List QueryOp} {scope : Query}
    (h : scope ∈ (run ops).build.scopes) : scope.PartsFilled := by
  -- a query of a builder, once it holds of the relationships in that builder
  have hbuild : ∀ builder : QueryBuilder,
      (∀ relationship ∈ builder.relationships, ∀ scope ∈ relationship.scopes,
        scope.PartsFilled) →
      ∀ scope ∈ builder.build.scopes, scope.PartsFilled := by
    intro builder hrelated scope hscope
    rcases Query.mem_scopes.mp hscope with rfl | ⟨row, hrow, above, habove, hmem⟩
    · exact builder.partsFilled_build
    · obtain ⟨rfl, -⟩ := mem_nonEmpty?.mp hrow
      exact hrelated above habove scope hmem
  refine hbuild (run ops) (forall_relationships ?_ ?_ ?_ ops) scope h
  · intro name scope hscope
    rw [Relationship.scopes_bare] at hscope
    cases hscope
  · intro name columns scope hscope
    rw [Relationship.scopes_scoped] at hscope
    cases hscope
  · exact fun name builder hrelated scope hscope =>
      hbuild builder hrelated scope (Relationship.mem_scopes_ofQuery hscope)

end ResourceQuery
