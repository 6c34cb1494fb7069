import Mathlib.Data.List.Forall2
import ResourceQuery.Proofs.Query.Depth
import ResourceQuery.Query.Rendering

/-!
# Rendering never fails

Encoding fails at a key that is no text. Queries offer texts and rows of texts, and tables whose
keys are the names of fields, at every depth, so their contents have data values, which are those
that `toJson` gives. Main statement: rendering a query gives its parameters
(`Query.renderParams_eq_ok`), whatever the query and the names are.
-/

set_option autoImplicit false

namespace ResourceQuery

/-! ## Rows and tables of fields -/

namespace Content

variable {α : Type} {content : α → Content} {json : α → Json}

theorem itemsToJson_map {items : List α}
    (h : ∀ item ∈ items, (content item).toJson = .ok (json item)) :
    itemsToJson (items.map content) = .ok (items.map json) := by
  induction items with
  | nil => rw [List.map_nil, itemsToJson, List.map_nil]
  | cons item rest ih =>
      obtain ⟨hitem, hrest⟩ := List.forall_mem_cons.mp h
      rw [List.map_cons, itemsToJson, hitem, ih hrest]
      rfl

/-- A row of encodable items is encodable. -/
theorem toJson_row {items : List α}
    (h : ∀ item ∈ items, (content item).toJson = .ok (json item)) :
    (row (items.map content)).toJson = .ok (.array (items.map json)) := by
  rw [toJson, itemsToJson_map h]
  rfl

/-- A field has a data value if its content has it. -/
def FieldGives (field : String × Content) (value : String × Json) : Prop :=
  field.1 = value.1 ∧ field.2.toJson = .ok value.2

theorem entriesToJson_fields {fields : List (String × Content)} {values : List (String × Json)}
    (h : List.Forall₂ FieldGives fields values) (written : List (String × Json)) :
    entriesToJson written (fields.map fun field => (text field.1, field.2))
      = .ok (values.foldl (fun map pair => Ascending.insert pair.1 pair.2 map) written) := by
  induction h generalizing written with
  | nil => rw [List.map_nil, entriesToJson, List.foldl_nil]
  | @cons field value fields values hfield _ ih =>
      obtain ⟨hname, hvalue⟩ := hfield
      rw [List.map_cons, entriesToJson, toName, hvalue, hname]
      exact ih _

/-- A table of encodable fields is encodable, since its keys are texts. -/
theorem toJson_fields {fields : List (String × Content)} {values : List (String × Json)}
    (h : List.Forall₂ FieldGives fields values) :
    (Content.fields fields).toJson = .ok (FieldOrder.ascending.object values) := by
  rw [Content.fields, toJson, entriesToJson_fields h]
  rfl

theorem toJson_strings (texts : List String) :
    (stringsContent texts).toJson = .ok (stringsToJson texts) :=
  toJson_row fun _ _ => by rw [toJson]

end Content

/-! ## Filters -/

theorem Arg.toJson_content (arg : Arg) : arg.content.toJson = .ok arg.toJson := by
  cases arg with
  | bool value => rw [content, Content.toJson, toJson]
  | int value => rw [content, Content.toJson, toJson]
  | float value => rw [content, Content.toJson, toJson]
  | string value => rw [content, Content.toJson, toJson]

theorem Condition.toJson_content (condition : Condition) :
    condition.content.toJson = .ok (condition.toJson .ascending) := by
  have hkind : (Content.text condition.kind.name).toJson = .ok (.string condition.kind.name) := by
    rw [Content.toJson]
  have hargs : (Content.row (condition.args.map Arg.content)).toJson
      = .ok (.array (condition.args.map Arg.toJson)) :=
    Content.toJson_row fun arg _ => arg.toJson_content
  exact Content.toJson_fields (.cons ⟨rfl, hkind⟩ (.cons ⟨rfl, hargs⟩ .nil))

namespace FilterNode

theorem contents_eq_map (nodes : List FilterNode) : contents nodes = nodes.map content := by
  induction nodes with
  | nil => rw [contents, List.map_nil]
  | cons node rest ih => rw [contents, ih, List.map_cons]

theorem toJson_row_contents {nodes : List FilterNode}
    (h : ∀ node ∈ nodes, node.content.toJson = .ok (node.toJson .ascending)) :
    (Content.row (contents nodes)).toJson = .ok (.array (listToJson .ascending nodes)) := by
  rw [contents_eq_map, listToJson_eq_map]
  exact Content.toJson_row h

theorem toJson_content (node : FilterNode) :
    node.content.toJson = .ok (node.toJson .ascending) := by
  induction node using FilterNode.induction with
  | join how => rw [content, Content.toJson, toJson]
  | condition asked => rw [content, toJson, asked.toJson_content]
  | group nodes ih => rw [content, toJson, toJson_row_contents ih]

theorem toJson_filterContent (nodes : List FilterNode) :
    (filterContent nodes).toJson = .ok (Params.ofFilter nodes) :=
  toJson_row_contents fun node _ => node.toJson_content

end FilterNode

/-! ## Relationships -/

section Parts

variable {α : Type} {content : α → Content} {json : α → Json}

theorem encodePart?_eq_ok (h : ∀ part, (content part).toJson = .ok (json part))
    (part? : Option α) : encodePart? content part? = .ok (part?.map json) := by
  cases part? with
  | none => rfl
  | some part =>
      rw [encodePart?, h]
      rfl

theorem contentField_gives (name : String) (h : ∀ part, (content part).toJson = .ok (json part))
    (part? : Option α) :
    List.Forall₂ Content.FieldGives (contentField name content part?)
      (optionalField name (part?.map json)) := by
  cases part? with
  | none => exact .nil
  | some part => exact .cons ⟨rfl, h part⟩ .nil

end Parts

theorem Query.plainContents_give (columns : Option (List String))
    (filters : Option (List FilterNode)) :
    List.Forall₂ Content.FieldGives (plainContents columns filters)
      (plainFields .ascending columns filters) := by
  rw [plainContents, plainFields]
  exact List.rel_append (contentField_gives _ Content.toJson_strings columns)
    (contentField_gives _ FilterNode.toJson_filterContent filters)

namespace Relationship

theorem contents_eq_map (related : List Relationship) : contents related = related.map content := by
  induction related with
  | nil => rw [contents, List.map_nil]
  | cons relationship rest ih => rw [contents, ih, List.map_cons]

theorem toJson_row_contents {related : List Relationship}
    (h : ∀ relationship ∈ related,
      relationship.content.toJson = .ok (relationship.toJson .ascending)) :
    (Content.row (contents related)).toJson = .ok (.array (listToJson .ascending related)) := by
  rw [contents_eq_map, listToJson_eq_map]
  exact Content.toJson_row h

/-- The fields of a query are encodable once its relationships are. -/
theorem contents_give {query : Query}
    (h : ∀ row ∈ query.relationships, ∀ relationship ∈ row,
      relationship.content.toJson = .ok (relationship.toJson .ascending)) :
    List.Forall₂ Content.FieldGives (Query.contents query) (Query.fields .ascending query) := by
  obtain ⟨columns, filters, related⟩ := query
  have hplain := Query.plainContents_give columns filters
  cases related with
  | none =>
      rw [Query.contents, Query.fields]
      exact hplain
  | some row =>
      have hrow := toJson_row_contents (h row rfl)
      rw [Query.contents, Query.fields]
      exact List.rel_append hplain (.cons ⟨rfl, hrow⟩ .nil)

theorem toJson_content (relationship : Relationship) :
    relationship.content.toJson = .ok (relationship.toJson .ascending) := by
  induction relationship using Relationship.induction with
  | compact relationship text h =>
      rcases relationship with name | ⟨name, columns⟩ | ⟨name, query⟩
      · rw [content, Content.toJson, toJson]
      · rw [content, Content.toJson, toJson]
      · cases h
  | nested name query ih =>
      have hname : (Content.text name).toJson = .ok (.string name) := by rw [Content.toJson]
      rw [content, toJson]
      exact Content.toJson_fields (.cons ⟨rfl, hname⟩ (contents_give ih))

theorem toJson_relatedContent (related : List Relationship) :
    (relatedContent related).toJson = .ok (Params.ofRelationships related) :=
  toJson_row_contents fun relationship _ => relationship.toJson_content

end Relationship

/-! ## Parameters -/

/-- **Rendering never fails**: it gives the parameters of the query. -/
theorem Query.renderParams_eq_ok (names : Names) (query : Query) :
    query.renderParams names = .ok (query.toParams names) := by
  have hfilters := encodePart?_eq_ok FilterNode.toJson_filterContent query.filters
  have hrelated := encodePart?_eq_ok Relationship.toJson_relatedContent query.relationships
  rw [renderParams, hfilters, hrelated, toParams]
  rfl

end ResourceQuery
