import ResourceQuery.Proofs.Json.Legible
import ResourceQuery.Proofs.Params.Parts
import ResourceQuery.Proofs.Query.ReadBack

/-!
# Legible parameters

What a query is written as in ascending order is legible, level by level, when its floats are:
`Arg.ReadsBack` says this of an argument. Main statement: `Query.legible_toParams`.
-/

set_option autoImplicit false

namespace ResourceQuery

/-! ## Objects -/

/-- An object in ascending order is legible when its field values are. -/
theorem FieldOrder.legible_object {fields : List (String × Json)}
    (h : ∀ field ∈ fields, field.2.Legible) : (FieldOrder.ascending.object fields).Legible :=
  ⟨Ascending.ofPairs_ascending fields, Json.legibleFields_iff.mpr fun field hmem =>
    h field (Ascending.mem_of_mem_ofPairs hmem)⟩

/-! ## Filters -/

/-- An argument whose number is read as it is written. -/
def Arg.ReadsBack : Arg → Prop
  | .float value => (Number.float value).ReadsBack
  | _ => True

theorem Arg.ReadsBack.isFinite {arg : Arg} (h : arg.ReadsBack) : arg.IsFinite := by
  cases arg with
  | float value =>
      -- a float that is not finite is written as null, which is no numeral
      by_contra hinfinite
      have htext : (Number.float value).text = "null" := by
        simp only [IsFinite] at hinfinite
        simp [Number.text, hinfinite]
      simp only [ReadsBack, Number.ReadsBack, htext] at h
      cases h
  | bool value => trivial
  | int value => trivial
  | string value => trivial

theorem Arg.legible_toJson {arg : Arg} (h : arg.ReadsBack) : arg.toJson.Legible := by
  cases arg with
  | float value =>
      have hfinite : value.isFinite = true := h.isFinite
      rw [toJson, if_pos hfinite]
      exact h
  | bool value => trivial
  | int value =>
      have hlow := Int64.le_toInt value
      have hhigh := Int64.toInt_lt value
      refine Number.readsBack_int ⟨?_, ?_⟩ <;> omega
  | string value => trivial

theorem Condition.legible_toJson {condition : Condition}
    (h : ∀ arg ∈ condition.args, arg.ReadsBack) : (condition.toJson .ascending).Legible := by
  have hargs : (Json.array (condition.args.map Arg.toJson)).Legible := by
    refine Json.legibleItems_iff.mpr fun item hitem => ?_
    obtain ⟨arg, harg, rfl⟩ := List.mem_map.mp hitem
    exact Arg.legible_toJson (h arg harg)
  refine FieldOrder.legible_object fun field hfield => ?_
  rcases List.mem_cons.mp hfield with rfl | hfield
  · trivial
  · rw [List.mem_singleton.mp hfield]
    exact hargs

namespace FilterNode

theorem legible_toJson {node : FilterNode} (h : ∀ arg ∈ node.args, arg.ReadsBack) :
    (node.toJson .ascending).Legible := by
  induction node using FilterNode.induction with
  | join how =>
      rw [toJson]
      trivial
  | condition asked =>
      rw [toJson]
      exact Condition.legible_toJson h
  | group nodes ih =>
      rw [toJson, listToJson_eq_map]
      refine Json.legibleItems_iff.mpr fun item hitem => ?_
      obtain ⟨node, hnode, rfl⟩ := List.mem_map.mp hitem
      exact ih node hnode fun arg harg => h arg (mem_listArgs.mpr ⟨node, hnode, harg⟩)

end FilterNode

theorem Params.legible_ofFilter {nodes : List FilterNode}
    (h : ∀ arg ∈ FilterNode.listArgs nodes, arg.ReadsBack) : (Params.ofFilter nodes).Legible := by
  have hgroup : (FilterNode.toJson .ascending (.group nodes)).Legible :=
    FilterNode.legible_toJson h
  rw [FilterNode.toJson] at hgroup
  exact hgroup

/-! ## Queries -/

theorem legible_stringsToJson (texts : List String) : (stringsToJson texts).Legible := by
  refine Json.legibleItems_iff.mpr fun item hitem => ?_
  obtain ⟨text, -, rfl⟩ := List.mem_map.mp hitem
  trivial

/-- The parts of a query are legible when its own floats and its relationships are. -/
theorem Query.legible_parts {query : Query} (hown : ∀ arg ∈ query.ownArgs, arg.ReadsBack)
    (hrelated : ∀ row ∈ query.relationships, ∀ relationship ∈ row,
      (relationship.toJson .ascending).Legible) {part : Json} (h : query.IsPart part) :
    part.Legible := by
  rcases h with ⟨columns, -, rfl⟩ | ⟨nodes, hnodes, rfl⟩ | ⟨row, hrow, rfl⟩
  · exact legible_stringsToJson columns
  · refine Params.legible_ofFilter fun arg harg => hown arg ?_
    rw [Query.ownArgs, hnodes]
    exact harg
  · refine Json.legibleItems_iff.mpr fun item hitem => ?_
    rw [Relationship.listToJson_eq_map] at hitem
    obtain ⟨relationship, hmem, rfl⟩ := List.mem_map.mp hitem
    exact hrelated row hrow relationship hmem

theorem Relationship.legible_toJson {relationship : Relationship}
    (h : ∀ arg ∈ relationship.args, arg.ReadsBack) :
    (relationship.toJson .ascending).Legible := by
  induction relationship using Relationship.induction with
  | compact relationship text htext =>
      rw [toJson_of_compact? htext]
      trivial
  | nested name query ih =>
      rw [args_nested, Query.forall_args_iff] at h
      rw [toJson]
      -- the name of the resource comes before its fields
      refine FieldOrder.legible_object (List.forall_mem_cons.mpr ⟨trivial, fun field hfield => ?_⟩)
      have hrelationships := fun row hrow relationship hmem =>
        ih row hrow relationship hmem (h.2 row hrow relationship hmem)
      exact Query.legible_parts h.1 hrelationships (Query.of_mem_fields hfield).2

end ResourceQuery
