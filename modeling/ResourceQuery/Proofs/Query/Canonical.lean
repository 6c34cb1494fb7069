import ResourceQuery.Proofs.Query.Composition

/-!
# The shape of built queries

A query with columns and nothing else has a compact form, and a builder keeps no such query in a
relationship. So of two forms of one query only one is ever built: at every depth a part that is
present is not empty, and a relationship has a query of its own only if that query needs it.
Including the query of a program is including its columns where it has nothing else, down to the
warnings (`QueryOp.apply_relatedQuery_of_columnsOnly`). Main statement: `QueryOp.build_canonical`.
-/

set_option autoImplicit false

namespace ResourceQuery

/-! ## Queries with columns only -/

/-- A query has columns, and neither a filter nor relationships. -/
structure Query.ColumnsOnly (query : Query) : Prop where
  columns : query.columns.isSome = true
  filters : query.filters = none
  relationships : query.relationships = none

theorem Query.columnsOnly_iff {query : Query} :
    query.ColumnsOnly ↔ ∃ columns, query = ⟨some columns, none, none⟩ := by
  constructor
  · obtain ⟨columns, filters, related⟩ := query
    rintro ⟨hcolumns, rfl, rfl⟩
    obtain ⟨row, rfl⟩ := Option.isSome_iff_exists.mp hcolumns
    exact ⟨row, rfl⟩
  · rintro ⟨columns, rfl⟩
    exact ⟨rfl, rfl, rfl⟩

namespace Relationship

theorem ofQuery_columnsOnly (name : String) (columns : List String) :
    ofQuery name ⟨some columns, none, none⟩ = .scoped name columns := rfl

/-- A query with more than columns is kept as it is, and its name gives no warnings. -/
theorem ofQuery_of_not {query : Query} (h : ¬ query.ColumnsOnly) (name : String) :
    ofQuery name query = .nested name query ∧ queryWarnings name query = [] := by
  rcases query with ⟨_ | columns, _ | filters, _ | related⟩
  case some.none.none => exact absurd ⟨rfl, rfl, rfl⟩ h
  all_goals exact ⟨rfl, rfl⟩

/-- Relationships of one name with different queries are different. -/
theorem ofQuery_eq_iff {name : String} {query query' : Query} :
    ofQuery name query = ofQuery name query' ↔ query = query' := by
  refine ⟨fun h => ?_, congrArg _⟩
  -- a collapsed entry tells its columns, and a nested one its query
  by_cases honly : query.ColumnsOnly
  · obtain ⟨columns, rfl⟩ := Query.columnsOnly_iff.mp honly
    by_cases honly' : query'.ColumnsOnly
    · obtain ⟨columns', rfl⟩ := Query.columnsOnly_iff.mp honly'
      cases h
      rfl
    · rw [(ofQuery_of_not honly' name).1] at h
      cases h
  · rw [(ofQuery_of_not honly name).1] at h
    by_cases honly' : query'.ColumnsOnly
    · obtain ⟨columns', rfl⟩ := Query.columnsOnly_iff.mp honly'
      cases h
    · rw [(ofQuery_of_not honly' name).1] at h
      cases h
      rfl

/-- A query with columns only equals no query with more. -/
theorem same_columnsOnly {columns : List String} {query : Query} (h : ¬ query.ColumnsOnly) :
    Query.same ⟨some columns, none, none⟩ query = false
      ∧ query.same ⟨some columns, none, none⟩ = false := by
  rcases query with ⟨_ | columns', _ | filters, _ | related⟩
  case some.none.none => exact absurd ⟨rfl, rfl, rfl⟩ h
  all_goals simp [Query.same, sameOption]

/-- The same with floats compared as numbers: relationships of one name are equal just when their
queries are. -/
theorem same_ofQuery (name : String) (query query' : Query) :
    (ofQuery name query).same (ofQuery name query') = query.same query' := by
  by_cases honly : query.ColumnsOnly
  · obtain ⟨columns, rfl⟩ := Query.columnsOnly_iff.mp honly
    by_cases honly' : query'.ColumnsOnly
    · obtain ⟨columns', rfl⟩ := Query.columnsOnly_iff.mp honly'
      simp [ofQuery, same, Query.same, sameOption]
    · rw [(ofQuery_of_not honly' name).1, (same_columnsOnly honly').1]
      rfl
  · by_cases honly' : query'.ColumnsOnly
    · obtain ⟨columns', rfl⟩ := Query.columnsOnly_iff.mp honly'
      rw [(ofQuery_of_not honly name).1, (same_columnsOnly honly).2]
      rfl
    · rw [(ofQuery_of_not honly name).1, (ofQuery_of_not honly' name).1, same, beq_self_eq_true,
        Bool.true_and]

end Relationship

/-! ## Every depth -/

/-- A relationship has a query of its own only if that query has more than columns. -/
def Relationship.Needed : Relationship → Prop
  | .nested _ query => ¬ Query.ColumnsOnly query
  | _ => True

/-- The relationships of a builder are needed at every depth of its query once they are themselves,
with all that is in them. -/
theorem QueryBuilder.needed_included {builder : QueryBuilder}
    (h : ∀ relationship ∈ builder.relationships, ∀ below ∈ relationship.family, below.Needed) :
    ∀ below ∈ builder.build.included, below.Needed := by
  refine Query.forall_included_iff.mpr fun row hrow above habove => ?_
  obtain ⟨rfl, -⟩ := mem_nonEmpty?.mp hrow
  exact h above habove

namespace QueryOp

theorem needed_of_mem_included {ops : List QueryOp} {below : Relationship}
    (h : below ∈ (run ops).build.included) : below.Needed := by
  refine QueryBuilder.needed_included (forall_relationships ?_ ?_ ?_ ops) below h
  · intro name below hbelow
    rw [Relationship.family, List.mem_singleton] at hbelow
    rw [hbelow]
    exact trivial
  · intro name columns below hbelow
    rw [Relationship.family, List.mem_singleton] at hbelow
    rw [hbelow]
    exact trivial
  · intro name builder hbuilder
    -- a query with columns only has been collapsed
    by_cases honly : builder.build.ColumnsOnly
    · obtain ⟨columns, heq⟩ := Query.columnsOnly_iff.mp honly
      rw [heq, Relationship.ofQuery_columnsOnly, Relationship.family]
      exact List.forall_mem_singleton.mpr trivial
    · rw [(Relationship.ofQuery_of_not honly name).1, Relationship.family]
      exact List.forall_mem_cons.mpr ⟨honly, QueryBuilder.needed_included hbuilder⟩

/-! ## Including the query of a program -/

/-- A program that includes nothing gives no warnings. -/
theorem warnings_eq_nil {ops : List QueryOp} (h : (run ops).build.relationships = none) :
    (run ops).warnings = [] := by
  have hcollect := run_eq_collect ops
  -- every inclusion would be seen as a relationship
  have hempty : (inclusions (inlinedAll ops)).map Inclusion.entry = [] := by
    rw [hcollect] at h
    by_contra hne
    have hmem : (inclusions (inlinedAll ops)).map Inclusion.entry
        ∈ nonEmpty? ((inclusions (inlinedAll ops)).map Inclusion.entry) :=
      mem_nonEmpty?.mpr ⟨rfl, hne⟩
    exact absurd (h.symm.trans hmem) (Option.some_ne_none _).symm
  rw [hcollect, List.map_eq_nil_iff.mp hempty]
  rfl

theorem apply_relatedQuery (name : String) (ops : List QueryOp) (builder : QueryBuilder) :
    (relatedQuery name ops).apply builder
      = builder.relate (.ofQuery name (run ops).build)
          ((run ops).warnings ++ Relationship.queryWarnings name (run ops).build) := rfl

/-- Including a query with columns only is including its columns. -/
theorem apply_relatedQuery_of_columnsOnly {ops : List QueryOp} {columns : List String}
    (h : (run ops).build = ⟨some columns, none, none⟩) (name : String) (builder : QueryBuilder) :
    (relatedQuery name ops).apply builder = (relatedColumns name columns).apply builder := by
  have hwarnings : (run ops).warnings = [] := warnings_eq_nil (by rw [h])
  rw [apply_relatedQuery, hwarnings, h]
  rfl

/-- Including a query with more than columns adds it with its parts. -/
theorem apply_relatedQuery_of_not {ops : List QueryOp} (h : ¬ (run ops).build.ColumnsOnly)
    (name : String) (builder : QueryBuilder) :
    (relatedQuery name ops).apply builder
      = builder.relate (.nested name (run ops).build) (run ops).warnings := by
  obtain ⟨hentry, hwarnings⟩ := Relationship.ofQuery_of_not h name
  rw [apply_relatedQuery, hentry, hwarnings, List.append_nil]

/-- **The shape of built queries.** At every depth no part is empty, and no relationship has a query
with columns only. Including the query of a program adds the compact form just when that query has
columns only, as including these columns would, and otherwise the query with its parts. Two programs
add equal entries under one name just when they build equal queries, also with floats compared as
numbers. -/
theorem build_canonical (ops : List QueryOp) :
    (∀ scope ∈ (run ops).build.scopes, scope.PartsFilled)
      ∧ (∀ name (query : Query), .nested name query ∈ (run ops).build.included →
          ¬ query.ColumnsOnly)
      ∧ ∀ (name : String) (builder : QueryBuilder),
        ((∃ columns, ((relatedQuery name ops).apply builder).relationships
              = builder.relationships ++ [.scoped name columns])
            ↔ (run ops).build.ColumnsOnly)
        ∧ (∀ columns, (run ops).build = ⟨some columns, none, none⟩ →
            (relatedQuery name ops).apply builder = (relatedColumns name columns).apply builder)
        ∧ (¬ (run ops).build.ColumnsOnly →
            (relatedQuery name ops).apply builder
              = { builder with
                  relationships := builder.relationships ++ [.nested name (run ops).build]
                  warnings := builder.warnings ++ (run ops).warnings })
        ∧ ∀ ops',
          (((relatedQuery name ops).apply builder).relationships
              = ((relatedQuery name ops').apply builder).relationships
            ↔ (run ops).build = (run ops').build)
          ∧ (Relationship.ofQuery name (run ops).build).same
              (Relationship.ofQuery name (run ops').build)
            = (run ops).build.same (run ops').build := by
  refine ⟨fun scope hscope => partsFilled_of_mem_scopes hscope,
    fun _ _ hmem => needed_of_mem_included hmem, fun name builder => ⟨?_, ?_, ?_, ?_⟩⟩
  · -- collapsed just for columns alone
    constructor
    · rintro ⟨columns, hcolumns⟩
      by_contra honly
      rw [apply_relatedQuery_of_not honly] at hcolumns
      have hentry := List.append_cancel_left hcolumns
      cases hentry
    · intro honly
      obtain ⟨columns, heq⟩ := Query.columnsOnly_iff.mp honly
      refine ⟨columns, ?_⟩
      rw [apply_relatedQuery_of_columnsOnly heq]
      rfl
  · -- collapsed: the same builder as with the columns given at once
    exact fun columns heq => apply_relatedQuery_of_columnsOnly heq name builder
  · -- kept: the whole query of the program
    exact fun honly => apply_relatedQuery_of_not honly name builder
  · -- equal entries: the builder adds one entry in both cases
    refine fun ops' => ⟨?_, Relationship.same_ofQuery _ _ _⟩
    have hentries : ((relatedQuery name ops).apply builder).relationships
          = ((relatedQuery name ops').apply builder).relationships
        ↔ Relationship.ofQuery name (run ops).build
          = Relationship.ofQuery name (run ops').build := by
      rw [apply_relatedQuery, apply_relatedQuery, QueryBuilder.relate, QueryBuilder.relate,
        List.append_cancel_left_eq, List.singleton_inj]
    rw [hentries, Relationship.ofQuery_eq_iff]

/-- A query with columns only below one whose columns were selected away. -/
theorem build_canonical_collapsed :
    let inner : List QueryOp := [.select ["x"], .when true [.select ["x", "y"]]]
    let ops : List QueryOp := [.select ["z"], .relatedQuery "a:b" inner, .select []]
    (run ops).build = ⟨none, none, some [.scoped "a:b" ["x", "y"]]⟩
      ∧ (run [.relatedQuery "c" ops]).build = ⟨none, none, some [.nested "c" (run ops).build]⟩
      ∧ (run ops).build.PartsFilled
      ∧ ¬ (run ops).build.ColumnsOnly
      ∧ (relatedQuery "a:b" inner).apply (run ops)
        = (relatedColumns "a:b" ["x", "y"]).apply (run ops)
      ∧ ((relatedQuery "c" ops).apply .empty).relationships = [.nested "c" (run ops).build]
      ∧ ((relatedQuery "c" ops).apply .empty).warnings = [.ambiguousName "a:b"]
      ∧ ((relatedQuery "c" ops).apply .empty).relationships
        ≠ ((relatedQuery "c" inner).apply .empty).relationships := by
  intro inner ops
  have hops : (run ops).build = ⟨none, none, some [.scoped "a:b" ["x", "y"]]⟩ := rfl
  have hinner : (run inner).build = ⟨some ["x", "y"], none, none⟩ := rfl
  have hbuild : (run [.relatedQuery "c" ops]).build
      = ⟨none, none, some [.nested "c" (run ops).build]⟩ := rfl
  obtain ⟨hfilled, honly, -⟩ := build_canonical [.relatedQuery "c" ops]
  obtain ⟨-, -, hentry⟩ := build_canonical inner
  obtain ⟨-, hcolumns, -, -⟩ := hentry "a:b" (run ops)
  obtain ⟨-, -, hentry'⟩ := build_canonical ops
  obtain ⟨-, -, hnested, hsame⟩ := hentry' "c" .empty
  -- `ops` has a relationship, though its columns were selected away
  have hneeded : ¬ (run ops).build.ColumnsOnly := by
    refine honly "c" _ ?_
    rw [hbuild, Query.included, Relationship.families, Relationship.family]
    exact List.mem_cons_self
  have hscope : (run ops).build ∈ (run [.relatedQuery "c" ops]).build.scopes := by
    rw [hbuild]
    refine Query.mem_scopes.mpr (.inr ⟨_, rfl, _, List.mem_singleton_self _, ?_⟩)
    rw [Relationship.scopes_nested]
    exact Query.mem_scopes.mpr (.inl rfl)
  refine ⟨hops, hbuild, hfilled _ hscope, hneeded, hcolumns _ hinner, ?_, ?_, ?_⟩
  · -- an entry of its own, with the warnings of the program
    rw [hnested hneeded]
    rfl
  · rw [hnested hneeded]
    rfl
  · -- programs with different queries add different entries
    intro hequal
    have hbuilds := (hsame inner).1.mp hequal
    rw [hops, hinner] at hbuilds
    cases hbuilds

end QueryOp

end ResourceQuery
