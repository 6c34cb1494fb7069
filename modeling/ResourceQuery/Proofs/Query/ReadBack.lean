import ResourceQuery.Proofs.Filter.ReadBack
import ResourceQuery.Proofs.Relationship.Grammar

/-!
# Relationships that were written

A relationship that was written may read as another one: only its compact text is kept, and the
parts of that text need not be the parts it was made of. `Relationship.ReadsAs` relates a
relationship to what it reads as, `Query.ReadsAs` a query. Main statements: when something is read
at all (`Relationship.exists_readsAs_iff`), that writing it again gives the same
(`Relationship.toJson_of_readsAs`), and when it is the relationship that was written
(`Relationship.readsAs_self_iff`).
-/

set_option autoImplicit false

namespace ResourceQuery

variable {order : FieldOrder}

/-! ## Fields of objects -/

theorem Ascending.get?_reverse {κ β : Type} [DecidableEq κ] {pairs : List (κ × β)}
    (h : (pairs.map Prod.fst).Nodup) (key : κ) : get? key pairs.reverse = get? key pairs := by
  induction pairs with
  | nil => rfl
  | cons pair rest ih =>
      obtain ⟨k, v⟩ := pair
      obtain ⟨hk, hrest⟩ := List.nodup_cons.mp h
      rw [List.reverse_cons, get?_append, ih hrest]
      by_cases hkey : k = key
      · subst hkey
        simp [get?, get?_eq_none hk]
      · simp [get?, hkey]

/-- In either order an object has the fields that it is made of. -/
theorem FieldOrder.object_eq {fields : List (String × Json)} (h : (fields.map Prod.fst).Nodup) :
    ∃ fields', order.object fields = .object fields'
      ∧ ∀ key, Ascending.get? key fields' = Ascending.get? key fields := by
  cases order with
  | declared => exact ⟨fields, rfl, fun _ => rfl⟩
  | ascending =>
      refine ⟨_, rfl, fun key => ?_⟩
      rw [Ascending.get?_ofPairs, Ascending.get?_reverse h]

namespace Query

theorem nodup_fields (name : String) (query : Query) :
    ((("name", Json.string name) :: fields order query).map Prod.fst).Nodup := by
  rcases query with ⟨_ | columns, _ | filters, _ | related⟩ <;>
    simp [fields, plainFields, optionalField]

theorem get?_columns (query : Query) :
    Ascending.get? "columns" (fields order query) = query.columns.map stringsToJson := by
  rcases query with ⟨_ | columns, _ | filters, _ | related⟩ <;>
    simp [fields, plainFields, optionalField, Ascending.get?]

theorem get?_filters (query : Query) :
    Ascending.get? "filters" (fields order query)
      = query.filters.map fun nodes => .array (FilterNode.listToJson order nodes) := by
  rcases query with ⟨_ | columns, _ | filters, _ | related⟩ <;>
    simp [fields, plainFields, optionalField, Ascending.get?]

theorem get?_relationships (query : Query) :
    Ascending.get? "relationships" (fields order query)
      = query.relationships.map fun row => .array (Relationship.listToJson order row) := by
  rcases query with ⟨_ | columns, _ | filters, _ | related⟩ <;>
    simp [fields, plainFields, optionalField, Ascending.get?]

end Query

/-! ## Columns and filters -/

/-- A row of texts is read from their array only. -/
theorem decodeStrings_eq_ok_iff {value : Json} {texts : List String} :
    Json.decodeStrings value = .ok texts ↔ value = stringsToJson texts := by
  have hitems : ∀ items : List Json,
      List.Forall₂ (fun item text => Json.decodeString item = .ok text) items texts
        ↔ items = texts.map .string := by
    intro items
    rw [← List.forall₂_eq_eq_eq, List.forall₂_map_right_iff]
    simp only [Json.decodeString_eq_ok_iff]
  rw [Json.decodeStrings, Json.decodeList_eq_ok_iff]
  constructor
  · rintro ⟨items, rfl, h⟩
    rw [(hitems items).mp h, stringsToJson]
  · rintro rfl
    exact ⟨_, rfl, (hitems _).mpr rfl⟩

theorem decodeStrings_written_iff {columns back : List String} :
    Json.decodeStrings (stringsToJson columns) = .ok back ↔ back = columns := by
  have hinjective : Function.Injective Json.string := fun _ _ h => Json.string.inj h
  rw [decodeStrings_eq_ok_iff, stringsToJson, stringsToJson, Json.array.injEq,
    (List.map_injective_iff.mpr hinjective).eq_iff]
  exact eq_comm

theorem columnsRel_iff {columns back : Option (List String)} :
    Option.Rel (fun row row' => Json.decodeStrings (stringsToJson row) = .ok row') columns back
      ↔ back = columns := by
  rw [optionRel_eq_and_iff (p := fun _ => True) fun _ _ _ => by
    rw [decodeStrings_written_iff, and_true]]
  simp

theorem filtersRel_iff {query : Query} {back : Option (List FilterNode)} :
    Option.Rel (fun nodes nodes' =>
        FilterNode.filterOfJson (.array (FilterNode.listToJson order nodes)) = .ok nodes')
        query.filters back
      ↔ back = query.filters ∧ ∀ arg ∈ query.ownArgs, arg.IsFinite := by
  rw [optionRel_eq_and_iff fun _ _ _ => FilterNode.filterOfJson_written_iff]
  obtain ⟨columns, filters, related⟩ := query
  cases filters with
  | none => simp [Query.ownArgs]
  | some nodes => simp [Query.ownArgs]

/-! ## What is read -/

/-- What a relationship reads as after it was written. -/
def Relationship.ReadsAs (order : FieldOrder) (relationship back : Relationship) : Prop :=
  Relationship.ofJson (relationship.toJson order) = .ok back

/-- What a query reads as after it was written: its columns and filters are kept, which its own
floats must allow, and each relationship reads as some relationship. -/
structure Query.ReadsAs (order : FieldOrder) (query back : Query) : Prop where
  columns : back.columns = query.columns
  filters : back.filters = query.filters
  relationships : Option.Rel (List.Forall₂ (Relationship.ReadsAs order)) query.relationships
    back.relationships
  finite : ∀ arg ∈ query.ownArgs, arg.IsFinite

namespace Relationship

theorem toJson_of_compact? {relationship : Relationship} {text : String}
    (h : relationship.compact? = some text) : relationship.toJson order = .string text := by
  rcases relationship with name | ⟨name, columns⟩ | ⟨name, query⟩
  · rw [toJson, Option.some.inj h]
  · rw [toJson, Option.some.inj h]
  · cases h

theorem readsAs_compact_iff {relationship back : Relationship} {text : String}
    (h : relationship.compact? = some text) :
    ReadsAs order relationship back ↔ ofCompact text = .ok back := by
  rw [ReadsAs, toJson_of_compact? h, ofJson]
  cases ofCompact text <;> simp

/-- The relationships of a query are read as any other part that may be absent or null. -/
theorem partOfJson_eq (value : Json) :
    partOfJson value = Json.decodeOption (Json.decodeList ofJson) value := by
  have heach : ∀ items, eachOfJson items = Json.decodeEach ofJson items := by
    intro items
    induction items with
    | nil => rfl
    | cons item rest ih => rw [eachOfJson, ih, Json.decodeEach]
  cases value with
  | array items => rw [partOfJson, heach]; rfl
  | _ => rfl

theorem fieldOfJson_eq (fields : List (String × Json)) :
    fieldOfJson fields = Json.decodePart "relationships" (Json.decodeList ofJson) fields := by
  induction fields with
  | nil => rfl
  | cons field rest ih =>
      obtain ⟨name, value⟩ := field
      by_cases hname : name = "relationships"
      · simp only [fieldOfJson, hname, if_true, partOfJson_eq, Json.decodePart, Json.decodeField?,
          Ascending.get?]
        cases Json.decodeOption (Json.decodeList ofJson) value <;> rfl
      · simp only [fieldOfJson, hname, if_false, ih, Json.decodePart, Json.decodeField?,
          Ascending.get?]

/-- A row of relationships that was written, as a row of what each of them reads as. -/
theorem decodeList_written_iff {row back : List Relationship} :
    Json.decodeList ofJson (.array (listToJson order row)) = .ok back
      ↔ List.Forall₂ (ReadsAs order) row back := by
  simp only [Json.decodeList_eq_ok_iff, Json.array.injEq, exists_eq_left', listToJson_eq_map,
    List.forall₂_map_left_iff]
  rfl

end Relationship

namespace Query

/-- The parts of an object that has the fields of a query read as what the query reads as. -/
theorem parts_eq_ok_iff {query back : Query} {fields : List (String × Json)}
    (hcolumns : Ascending.get? "columns" fields = query.columns.map stringsToJson)
    (hfilters : Ascending.get? "filters" fields
      = query.filters.map fun nodes => .array (FilterNode.listToJson order nodes))
    (hrelated : Ascending.get? "relationships" fields
      = query.relationships.map fun row => .array (Relationship.listToJson order row)) :
    (Json.decodePart "columns" Json.decodeStrings fields = .ok back.columns
      ∧ Json.decodePart "filters" FilterNode.filterOfJson fields = .ok back.filters
      ∧ Relationship.fieldOfJson fields = .ok back.relationships)
      ↔ ReadsAs order query back := by
  rw [Json.decodePart_eq_ok_iff (fun _ => by simp [stringsToJson]) hcolumns, columnsRel_iff,
    Json.decodePart_eq_ok_iff (fun _ => by simp) hfilters, filtersRel_iff,
    Relationship.fieldOfJson_eq, Json.decodePart_eq_ok_iff (fun _ => by simp) hrelated]
  simp only [Relationship.decodeList_written_iff]
  constructor
  · rintro ⟨hcolumns, ⟨hfilters, hfinite⟩, hrelated⟩
    exact ⟨hcolumns, hfilters, hrelated, hfinite⟩
  · rintro ⟨hcolumns, hfilters, hrelated, hfinite⟩
    exact ⟨hcolumns, ⟨hfilters, hfinite⟩, hrelated⟩

end Query

namespace Relationship

theorem ofNested_eq_ok_iff {decoded : Decoded (String × Query)} {back : Relationship} :
    ofNested decoded = .ok back
      ↔ ∃ name query, decoded = .ok (name, query) ∧ back = .nested name query := by
  cases decoded with
  | error error => simp [ofNested]
  | ok pair =>
      obtain ⟨name, query⟩ := pair
      simp [ofNested, eq_comm]

theorem nestedOfFields_eq_ok_iff {fields : List (String × Json)} {name : String} {query : Query}
    {related : Decoded (Option (List Relationship))}
    (hname : Ascending.get? "name" fields = some (.string name)) {name' : String} :
    nestedOfFields fields related = .ok (name', query)
      ↔ name' = name ∧ Json.decodePart "columns" Json.decodeStrings fields = .ok query.columns
        ∧ Json.decodePart "filters" FilterNode.filterOfJson fields = .ok query.filters
        ∧ related = .ok query.relationships := by
  have hdecode : Json.decodeField? "name" Json.decodeString fields = .ok (some name) := by
    simp only [Json.decodeField?, hname]
    rfl
  simp only [nestedOfFields, bind_eq_ok_iff, hdecode, Except.ok.injEq, exists_eq_left',
    pure_eq_ok_iff]
  constructor
  · rintro ⟨columns, hcolumns, filters, hfilters, row, hrow, h⟩
    cases h
    exact ⟨rfl, hcolumns, hfilters, hrow⟩
  · rintro ⟨rfl, hcolumns, hfilters, hrow⟩
    exact ⟨_, hcolumns, _, hfilters, _, hrow, rfl⟩

/-- A relationship with a query reads as one of the same name with what the query reads as. -/
theorem readsAs_nested_iff {name : String} {query : Query} {back : Relationship} :
    ReadsAs order (.nested name query) back
      ↔ ∃ query', Query.ReadsAs order query query' ∧ back = .nested name query' := by
  obtain ⟨fields, hfields, hget⟩ :=
    @FieldOrder.object_eq order _ (@Query.nodup_fields order name query)
  have hskip : ∀ key ≠ "name",
      Ascending.get? key fields = Ascending.get? key (Query.fields order query) := by
    intro key hkey
    simp [hget, Ascending.get?, Ne.symm hkey]
  have hname : Ascending.get? "name" fields = some (.string name) := by
    simp [hget, Ascending.get?]
  have hparts : ∀ back, _ ↔ Query.ReadsAs order query back := fun back =>
    Query.parts_eq_ok_iff ((hskip "columns" (by decide)).trans (Query.get?_columns query))
      ((hskip "filters" (by decide)).trans (Query.get?_filters query))
      ((hskip "relationships" (by decide)).trans (Query.get?_relationships query))
  rw [ReadsAs, toJson, hfields, ofJson, ofNested_eq_ok_iff]
  simp only [nestedOfFields_eq_ok_iff hname, hparts]
  constructor
  · rintro ⟨name', query', ⟨rfl, hread⟩, rfl⟩
    exact ⟨query', hread, rfl⟩
  · rintro ⟨query', hread, rfl⟩
    exact ⟨name, query', ⟨rfl, hread⟩, rfl⟩

end Relationship

/-! ## When something is read, and what -/

section Optional

variable {α β : Type} {R : α → β → Prop}

theorem optionRel_self_iff {R : α → α → Prop} {x : Option α} :
    Option.Rel R x x ↔ ∀ a ∈ x, R a a := by
  constructor
  · rintro (haa | _) a ha
    · cases ha
      exact haa
    · cases ha
  · intro h
    cases x with
    | none => exact .none
    | some a => exact .some (h a rfl)

end Optional

namespace Query

theorem readsAs_self_iff_forall {query : Query} :
    ReadsAs order query query
      ↔ (∀ row ∈ query.relationships, ∀ relationship ∈ row,
          Relationship.ReadsAs order relationship relationship)
        ∧ ∀ arg ∈ query.ownArgs, arg.IsFinite := by
  have hrows : Option.Rel (List.Forall₂ (Relationship.ReadsAs order)) query.relationships
        query.relationships
      ↔ ∀ row ∈ query.relationships, ∀ relationship ∈ row,
          Relationship.ReadsAs order relationship relationship := by
    simp only [optionRel_self_iff, List.forall₂_same]
  rw [← hrows]
  exact ⟨fun h => ⟨h.relationships, h.finite⟩, fun h => ⟨rfl, rfl, h.1, h.2⟩⟩

end Query

namespace Relationship

/-- A written relationship is read unchanged when every compact form in it is well formed and no
float was written as null. -/
theorem readsAs_self_iff {relationship : Relationship} :
    ReadsAs order relationship relationship
      ↔ (∀ below ∈ relationship.family, below.WellFormed)
        ∧ ∀ arg ∈ relationship.args, arg.IsFinite := by
  induction relationship using Relationship.induction with
  | compact relationship text h =>
      simp [readsAs_compact_iff h, ofCompact_eq_ok_iff, family_of_compact? h, args_of_compact? h, h]
  | nested name query ih =>
      have hread : ReadsAs order (.nested name query) (.nested name query)
          ↔ Query.ReadsAs order query query := by
        rw [readsAs_nested_iff]
        exact ⟨fun ⟨query', h, hname⟩ => by cases hname; exact h, fun h => ⟨query, h, rfl⟩⟩
      rw [hread, Query.readsAs_self_iff_forall, forall_depth_nested_iff trivial,
        Query.forall_depth_iff]
      exact and_congr_left' (forall₄_congr ih)

end Relationship

namespace Query

/-- A written query is read unchanged when every compact form at every depth is well formed and no
float was written as null. -/
theorem readsAs_self_iff {query : Query} :
    ReadsAs order query query
      ↔ (∀ below ∈ query.included, below.WellFormed) ∧ ∀ arg ∈ query.args, arg.IsFinite := by
  rw [readsAs_self_iff_forall, forall_depth_iff]
  simp only [Relationship.readsAs_self_iff]

end Query

end ResourceQuery
