import ResourceQuery.Proofs.Query.Equality
import ResourceQuery.Proofs.Query.Rendering

/-!
# Parameters that were written

Every query has parameters, because rendering never fails. They are written under distinct names, so
each part is found where it was put and reading the parameters is reading the query
(`Query.ofParams_toParams_eq_ok_iff`). What is read has the parameters that were read
(`Query.toParams_of_readsAs`). The main statement says exactly which queries come back:
`Query.ofParams_toParams_iff`.
-/

set_option autoImplicit false

namespace ResourceQuery

/-! ## Parameters by name -/

theorem Names.areDistinct_iff {names : Names} :
    names.areDistinct = true
      ↔ names.columns ≠ names.filters ∧ names.columns ≠ names.relationships
        ∧ names.filters ≠ names.relationships := by
  simp [areDistinct, and_assoc]

theorem Params.get?_set? {key name : String} {value : Option Json} {params : Params} :
    Ascending.get? key (Params.set? name value params)
      = if key = name then value.or (Ascending.get? key params)
        else Ascending.get? key params := by
  cases value with
  | none => simp [set?]
  | some value =>
      by_cases hkey : key = name
      · simp [set?, Ascending.get?_insert, hkey]
      · simp [set?, Ascending.get?_insert, hkey]

namespace Query

variable {names : Names}

/-- Every part of a query is under its own name. -/
theorem get?_toParams (h : names.areDistinct = true) (query : Query) :
    Ascending.get? names.columns (query.toParams names) = query.columns.map stringsToJson
      ∧ Ascending.get? names.filters (query.toParams names) = query.filters.map Params.ofFilter
      ∧ Ascending.get? names.relationships (query.toParams names)
        = query.relationships.map Params.ofRelationships := by
  obtain ⟨hfilters, hcolumns, hrelated⟩ := Names.areDistinct_iff.mp h
  refine ⟨?_, ?_, ?_⟩
  · simp [toParams, Params.get?_set?, hfilters, hcolumns]
  · simp [toParams, Params.get?_set?, hrelated, Ne.symm hfilters]
  · simp [toParams, Params.get?_set?, Ne.symm hcolumns, Ne.symm hrelated]

/-- Reading the parameters of a query is reading the query that was written. -/
theorem ofParams_toParams_eq_ok_iff (h : names.areDistinct = true) {query back : Query} :
    Query.ofParams names (query.toParams names) = .ok back ↔ ReadsAs .ascending query back := by
  obtain ⟨hcolumns, hfilters, hrelated⟩ := get?_toParams h query
  -- the three parts are read one after the other, and none depends on another
  have hparts : Query.ofParams names (query.toParams names) = .ok back
      ↔ Json.decodeField? names.columns Json.decodeStrings (query.toParams names)
            = .ok back.columns
        ∧ Json.decodeField? names.filters FilterNode.filterOfJson (query.toParams names)
            = .ok back.filters
        ∧ Json.decodeField? names.relationships (Json.decodeList Relationship.ofJson)
            (query.toParams names) = .ok back.relationships := by
    simp only [Query.ofParams, bind_eq_ok_iff, pure_eq_ok_iff]
    constructor
    · rintro ⟨columns, hc, filters, hf, related, hr, rfl⟩
      exact ⟨hc, hf, hr⟩
    · rintro ⟨hc, hf, hr⟩
      exact ⟨_, hc, _, hf, _, hr, rfl⟩
  rw [hparts, Json.decodeField?_eq_ok_iff hcolumns, columnsRel_iff,
    Json.decodeField?_eq_ok_iff hfilters, Json.decodeField?_eq_ok_iff hrelated]
  simp only [Params.ofFilter, Params.ofRelationships, filtersRel_iff,
    Relationship.decodeList_written_iff]
  constructor
  · rintro ⟨hc, ⟨hf, hfinite⟩, hr⟩
    exact ⟨hc, hf, hr, hfinite⟩
  · rintro ⟨hc, hf, hr, hfinite⟩
    exact ⟨hc, ⟨hf, hfinite⟩, hr⟩

/-- **What comes back from parameters.** Every query is rendered as its parameters. It comes back
from them as it was exactly when every compact form at every depth is well formed and every float at
every depth is finite; and it is the same as what comes back, with floats compared as numbers, in no
other case. -/
theorem ofParams_toParams_iff (h : names.areDistinct = true) (query : Query) :
    query.renderParams names = .ok (query.toParams names)
      ∧ (Query.ofParams names (query.toParams names) = .ok query
        ↔ (∀ below ∈ query.included, below.WellFormed) ∧ ∀ arg ∈ query.args, arg.IsFinite)
      ∧ ((∃ back, Query.ofParams names (query.toParams names) = .ok back
            ∧ back.same query = true)
          ↔ (∀ below ∈ query.included, below.WellFormed)
            ∧ ∀ arg ∈ query.args, arg.IsFinite) := by
  have hself : Query.ofParams names (query.toParams names) = .ok query
      ↔ ReadsAs .ascending query query := ofParams_toParams_eq_ok_iff h
  refine ⟨query.renderParams_eq_ok names, hself.trans readsAs_self_iff, ?_⟩
  constructor
  · -- what is the same as a query that was written for it is that query
    rintro ⟨back, hback, hsame⟩
    have hread := (ofParams_toParams_eq_ok_iff h).mp hback
    rw [eq_of_same_of_readsAs hread hsame] at hread
    exact readsAs_self_iff.mp hread
  · intro hclean
    exact ⟨query, hself.mpr (readsAs_self_iff.mpr hclean), same_self hclean.2⟩

/-- A query of its own with a group, an empty part and marks in its name comes back; a name with a
colon does not. -/
theorem ofParams_toParams_standard :
    Query.ofParams .standard (toParams .standard
        ⟨some ["id", "a:b"], none, some [.bare "tags", .nested "a:b"
          ⟨some [], some [.group [.condition ⟨.comparison, [.string "x", .int 3]⟩]], none⟩]⟩)
      = .ok ⟨some ["id", "a:b"], none, some [.bare "tags", .nested "a:b"
          ⟨some [], some [.group [.condition ⟨.comparison, [.string "x", .int 3]⟩]], none⟩]⟩
    ∧ renderParams .standard ⟨none, none, some [.bare "a:b"]⟩
      = .ok [("relationships", .array [.string "a:b"])]
    ∧ Query.ofParams .standard (toParams .standard ⟨none, none, some [.bare "a:b"]⟩)
      ≠ .ok ⟨none, none, some [.bare "a:b"]⟩ := by
  have hnames : Names.standard.areDistinct = true := by decide
  refine ⟨?_, (ofParams_toParams_iff hnames _).1, ?_⟩
  · -- every name is well formed, and there is no float
    refine (ofParams_toParams_iff hnames _).2.1.mpr ⟨?_, ?_⟩
    · simp [included, Relationship.families, Relationship.family, Relationship.WellFormed,
        Compact.IsName]
    · simp [args, included, ownArgs, Relationship.families, Relationship.family,
        Relationship.ownArgs, FilterNode.listArgs, FilterNode.args, Arg.IsFinite]
  · -- the colon does not belong to a name
    intro hback
    have hname := ((ofParams_toParams_iff hnames _).2.1.mp hback).1 (.bare "a:b")
      (by simp [included, Relationship.families, Relationship.family])
    exact absurd hname (by simp [Relationship.WellFormed, Compact.IsName])

end Query

end ResourceQuery
