import ResourceQuery.Params
import ResourceQuery.Proofs.Ascending

/-!
# Where the parts of a query stand

The columns, filters and relationships of a query are the parts that a request carries
(`Query.IsPart`): every field of the object of a query is one of them under its own name
(`Query.of_mem_fields`), and every parameter is one of them under the name that the receiver expects
(`Query.of_mem_toParams`). The parameters ascend by name (`Query.keys_toParams`).
-/

set_option autoImplicit false

namespace ResourceQuery.Query

/-- A data value that a query has as a part. -/
def IsPart (query : Query) (part : Json) : Prop :=
  (∃ columns, query.columns = some columns ∧ stringsToJson columns = part)
    ∨ (∃ nodes, query.filters = some nodes ∧ Params.ofFilter nodes = part)
    ∨ ∃ row, query.relationships = some row ∧ Params.ofRelationships row = part

theorem mem_optionalField {field : String × Json} {name : String} {value : Option Json}
    (h : field ∈ optionalField name value) : field.1 = name ∧ value = some field.2 := by
  cases value with
  | none => exact absurd h List.not_mem_nil
  | some value => rw [List.mem_singleton.mp h]; exact ⟨rfl, rfl⟩

/-- The fields of a query are its parts. -/
theorem of_mem_fields {query : Query} {field : String × Json}
    (h : field ∈ fields .ascending query) :
    field.1 ∈ ["columns", "filters", "relationships"] ∧ query.IsPart field.2 := by
  -- columns and filters come first, whatever the relationships are
  have hplain : ∀ {columns : Option (List String)} {filters : Option (List FilterNode)}
      {related : Option (List Relationship)}, field ∈ plainFields .ascending columns filters →
      field.1 ∈ ["columns", "filters", "relationships"]
        ∧ IsPart ⟨columns, filters, related⟩ field.2 := by
    intro columns filters related hmem
    rcases List.mem_append.mp hmem with hmem | hmem
    · obtain ⟨hname, hpart⟩ := mem_optionalField hmem
      exact ⟨by simp [hname], .inl (Option.map_eq_some_iff.mp hpart)⟩
    · obtain ⟨hname, hpart⟩ := mem_optionalField hmem
      exact ⟨by simp [hname], .inr (.inl (Option.map_eq_some_iff.mp hpart))⟩
  obtain ⟨columns, filters, related⟩ := query
  cases related with
  | none => exact hplain h
  | some row =>
      rcases List.mem_append.mp h with hmem | hmem
      · exact hplain hmem
      · rw [List.mem_singleton.mp hmem]
        exact ⟨by simp, .inr (.inr ⟨row, rfl, rfl⟩)⟩

/-- Setting a parameter adds none but that one. -/
theorem of_mem_set? {param : String × Json} {name : String} {value : Option Json} {params : Params}
    (h : param ∈ Params.set? name value params) :
    (param.1 = name ∧ value = some param.2) ∨ param ∈ params := by
  cases value with
  | none => exact .inr h
  | some value =>
      rcases Ascending.mem_insert h with rfl | hmem
      · exact .inl ⟨rfl, rfl⟩
      · exact .inr hmem

/-- The parameters of a query are its parts. -/
theorem of_mem_toParams {names : Names} {query : Query} {param : String × Json}
    (h : param ∈ query.toParams names) :
    param.1 ∈ [names.columns, names.filters, names.relationships] ∧ query.IsPart param.2 := by
  rcases of_mem_set? h with ⟨hname, hpart⟩ | h
  · exact ⟨by simp [hname], .inr (.inr (Option.map_eq_some_iff.mp hpart))⟩
  rcases of_mem_set? h with ⟨hname, hpart⟩ | h
  · exact ⟨by simp [hname], .inr (.inl (Option.map_eq_some_iff.mp hpart))⟩
  rcases of_mem_set? h with ⟨hname, hpart⟩ | h
  · exact ⟨by simp [hname], .inl (Option.map_eq_some_iff.mp hpart)⟩
  · exact absurd h List.not_mem_nil

theorem keys_set? {name : String} {value : Option Json} {params : Params}
    (h : Ascending.Keys params) : Ascending.Keys (Params.set? name value params) := by
  cases value with
  | none => exact h
  | some value => exact Ascending.insert_ascending h

theorem keys_toParams (names : Names) (query : Query) : Ascending.Keys (query.toParams names) :=
  keys_set? (keys_set? (keys_set? List.Pairwise.nil))

end ResourceQuery.Query
