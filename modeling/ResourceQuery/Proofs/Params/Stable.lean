import ResourceQuery.Proofs.Decimal.Whole
import ResourceQuery.Proofs.Json.Legible
import ResourceQuery.Proofs.Params.ReadBack

/-!
# Parameters that were read

A query can be read from many spellings: arrays for objects, names as objects with one field, null
for parts that are absent, whole numbers above the range of arguments. Whatever the spelling was,
what is read is a query that comes back from its own parameters: its compact forms come from texts
in compact form, and its floats from numbers. `Params.normalize` reads parameters and writes them
again. Main statement: `Query.ofParams_stable`.
-/

set_option autoImplicit false

namespace ResourceQuery

namespace Json

variable {α : Type} {decode : Json → Decoded α}

/-- A part of a row of fields that may be left out at the end. -/
theorem exists_of_itemOr {items : List Json} {i : Nat} {part : α}
    (h : itemOr (decodeOption decode) none items[i]? = .ok (some part)) :
    ∃ value ∈ items, decode value = .ok part := by
  cases hget : items[i]? with
  | none =>
      rw [hget] at h
      cases h
  | some value =>
      rw [hget] at h
      exact ⟨value, List.mem_of_getElem? hget, decode_of_decodeOption h⟩

end Json

/-! ## Filters -/

/-- An argument that was read is no infinity, also if it was a whole number above its range. -/
theorem Arg.isFinite_of_ofJson? {value : Json} {arg : Arg} (hvalue : value.Ordered)
    (h : Arg.ofJson? value = some arg) : arg.IsFinite := by
  cases value with
  | null => cases h
  | bool value => cases h; trivial
  | string value => cases h; trivial
  | array items => cases h
  | object fields => cases h
  | number number =>
      cases number with
      | float value => cases h; exact hvalue
      | int value =>
          rw [ofJson?] at h
          split at h
          · cases h
            trivial
          · -- above the range of arguments a whole number becomes a float, which is finite
            cases h
            exact Decimal.isFinite_toFloat _

theorem Condition.isFinite_of_argsOfJson {value : Json} {args : List Arg} (hvalue : value.Ordered)
    (h : argsOfJson value = .ok args) : ∀ arg ∈ args, arg.IsFinite := by
  intro arg harg
  obtain ⟨items, rfl, item, hitem, hread⟩ := Json.exists_of_decodeList h harg
  rw [Arg.ofJson] at hread
  cases hfound : Arg.ofJson? item with
  | none =>
      rw [hfound] at hread
      cases hread
  | some arg' =>
      rw [hfound] at hread
      cases hread
      exact Arg.isFinite_of_ofJson? (hvalue.of_mem_items hitem) hfound

theorem Condition.isFinite_of_ofJson {value : Json} {condition : Condition}
    (hvalue : value.Ordered) (h : Condition.ofJson value = .ok condition) :
    ∀ arg ∈ condition.args, arg.IsFinite := by
  cases value with
  | object fields =>
      simp only [ofJson, ofFields, bind_eq_ok_iff] at h
      obtain ⟨args, hargs, kind, -, h⟩ := h
      rcases kind with _ | kind
      · cases h
      · rcases args with _ | args
        · cases h
        · cases h
          obtain ⟨item, hitem, hread⟩ := Json.exists_of_decodeField? hargs
          exact isFinite_of_argsOfJson (hvalue.of_mem_fields hitem) hread
  | array items =>
      rcases items with _ | ⟨kind, _ | ⟨args, rest⟩⟩
      · -- an array of two items, a kind and arguments
        cases h
      · simp only [ofJson, ofItems, bind_eq_ok_iff] at h
        obtain ⟨-, -, h⟩ := h
        cases h
      · simp only [ofJson, ofItems, bind_eq_ok_iff] at h
        obtain ⟨kind', -, args', hargs, h⟩ := h
        split at h
        · cases h
          exact isFinite_of_argsOfJson
            (hvalue.of_mem_items (List.mem_cons_of_mem _ List.mem_cons_self)) hargs
        · cases h
  | _ => cases h

namespace FilterNode

theorem isFinite_of_leafOfJson? {value : Json} {node : FilterNode} (hvalue : value.Ordered)
    (h : leafOfJson? value = some node) : ∀ arg ∈ node.args, arg.IsFinite := by
  rw [leafOfJson?] at h
  split at h
  · cases h
    exact fun arg harg => absurd harg List.not_mem_nil
  · split at h
    · rename_i hcondition
      cases h
      exact Condition.isFinite_of_ofJson hvalue hcondition
    · cases h

theorem isFinite_of_ofJson? {value : Json} {node : FilterNode} (hvalue : value.Ordered)
    (h : ofJson? value = some node) : ∀ arg ∈ node.args, arg.IsFinite := by
  induction value using Json.induction generalizing node with
  | array items ih =>
      rw [ofJson?] at h
      split at h
      · rename_i leaf hleaf
        cases h
        exact isFinite_of_leafOfJson? hvalue hleaf
      · obtain ⟨nodes, hnodes, rfl⟩ := Option.map_eq_some_iff.mp h
        intro arg harg
        obtain ⟨node, hnode, hmem⟩ := mem_listArgs.mp harg
        -- the node was read from an item, and the items are one level below
        rw [listOfJson?_eq_some_iff] at hnodes
        obtain ⟨item, hitem, hread⟩ := exists_mem_of_forall₂ hnodes hnode
        exact ih item hitem (hvalue.of_mem_items hitem) hread arg hmem
  | null | bool _ | number _ | string _ | object _ => exact isFinite_of_leafOfJson? hvalue h

theorem isFinite_of_filterOfJson {value : Json} {nodes : List FilterNode} (hvalue : value.Ordered)
    (h : filterOfJson value = .ok nodes) : ∀ arg ∈ listArgs nodes, arg.IsFinite := by
  cases value with
  | array items =>
      rw [filterOfJson] at h
      split at h
      · rename_i nodes' hnodes
        cases h
        intro arg harg
        obtain ⟨node, hnode, hmem⟩ := mem_listArgs.mp harg
        obtain ⟨item, hitem, hread⟩ :=
          exists_mem_of_forall₂ (listOfJson?_eq_some_iff.mp hnodes) hnode
        exact isFinite_of_ofJson? (hvalue.of_mem_items hitem) hread arg hmem
      · cases h
  | _ => cases h

end FilterNode

/-! ## Relationships -/

section Read

variable {order : FieldOrder}

/-- A query reads as itself when its filter has been read and its relationships read as
themselves. -/
theorem Query.readsAs_self_of_read {query : Query}
    (hfilters : ∀ nodes ∈ query.filters, ∃ value : Json, value.Ordered
      ∧ FilterNode.filterOfJson value = .ok nodes)
    (hrelated : ∀ row ∈ query.relationships, ∀ relationship ∈ row,
      Relationship.ReadsAs order relationship relationship) : ReadsAs order query query := by
  refine readsAs_self_iff_forall.mpr ⟨hrelated, fun arg harg => ?_⟩
  rw [ownArgs] at harg
  cases hquery : query.filters with
  | none =>
      rw [hquery] at harg
      exact absurd harg List.not_mem_nil
  | some nodes =>
      rw [hquery] at harg
      obtain ⟨value, hvalue, hread⟩ := hfilters nodes hquery
      exact FilterNode.isFinite_of_filterOfJson hvalue hread arg harg

namespace Relationship

theorem readsAs_nested_self {name : String} {query : Query} (h : Query.ReadsAs order query query) :
    ReadsAs order (.nested name query) (.nested name query) :=
  readsAs_nested_iff.mpr ⟨query, h, rfl⟩

theorem parts_of_nestedOfFields {fields : List (String × Json)} {name : String} {query : Query}
    {related : Decoded (Option (List Relationship))}
    (h : nestedOfFields fields related = .ok (name, query)) :
    Json.decodePart "filters" FilterNode.filterOfJson fields = .ok query.filters
      ∧ related = .ok query.relationships := by
  simp only [nestedOfFields, bind_eq_ok_iff] at h
  obtain ⟨columns, -, filters, hfilters, found, -, row, hrow, h⟩ := h
  rcases found with _ | name'
  · cases h
  · cases h
    exact ⟨hfilters, hrow⟩

theorem parts_of_nestedOfItems {items : List Json} {name : String} {query : Query}
    {related : Decoded (Option (List Relationship))}
    (h : nestedOfItems items related = .ok (name, query)) :
    itemOr (Json.decodeOption FilterNode.filterOfJson) none items[2]? = .ok query.filters
      ∧ related = .ok query.relationships := by
  cases items with
  | nil => cases h
  | cons first rest =>
      simp only [nestedOfItems, bind_eq_ok_iff] at h
      obtain ⟨name', -, columns, -, filters, hfilters, row, hrow, -, -, h⟩ := h
      cases h
      exact ⟨hfilters, hrow⟩

theorem exists_of_itemOfJson {items : List Json} {row : List Relationship}
    (h : itemOfJson items = .ok (some row)) :
    ∃ value ∈ items, partOfJson value = .ok (some row) := by
  match items, h with
  | [], h => cases h
  | [_], h => cases h
  | [_, _], h => cases h
  | [_, _, _], h => cases h
  | _ :: _ :: _ :: related :: _, h => exact ⟨related, by simp, h⟩

/-- Whatever is read as a relationship reads as itself once it is written, and so do all
relationships that are read as a part of a query. -/
theorem readsAs_self_of_read {value : Json} (hvalue : value.Ordered) :
    (∀ relationship, ofJson value = .ok relationship → ReadsAs order relationship relationship)
    ∧ ∀ row, partOfJson value = .ok (some row) →
      ∀ relationship ∈ row, ReadsAs order relationship relationship := by
  -- a relationship with a query has its row of relationships one level below, and each of them
  -- two levels below
  induction value using Json.induction with
  | null | bool _ | number _ =>
      refine ⟨fun _ h => ?_, fun _ h => ?_⟩
      · cases h
      · cases h
  | string text =>
      refine ⟨fun relationship h => ?_, fun _ h => ?_⟩
      · rw [ofJson] at h
        split at h
        · rename_i found hfound
          cases h
          exact (readsAs_compact_iff (ofCompact_eq_ok_iff.mp hfound).2).mpr hfound
        · cases h
      · cases h
  | array items ih =>
      refine ⟨fun relationship h => ?_, fun row h relationship hmem => ?_⟩
      · rw [ofJson, ofNested_eq_ok_iff] at h
        obtain ⟨name, query, hquery, rfl⟩ := h
        obtain ⟨hfilters, hrelated⟩ := parts_of_nestedOfItems hquery
        refine readsAs_nested_self (Query.readsAs_self_of_read ?_ ?_)
        · intro nodes hnodes
          obtain ⟨item, hitem, hread⟩ := Json.exists_of_itemOr (hnodes ▸ hfilters)
          exact ⟨item, hvalue.of_mem_items hitem, hread⟩
        · intro row hrow
          obtain ⟨item, hitem, hread⟩ := exists_of_itemOfJson (hrow ▸ hrelated)
          exact (ih item hitem (hvalue.of_mem_items hitem)).2 row hread
      · rw [partOfJson_eq] at h
        obtain ⟨items', hitems, item, hitem, hread⟩ :=
          Json.exists_of_decodeList (Json.decode_of_decodeOption h) hmem
        cases hitems
        exact (ih item hitem (hvalue.of_mem_items hitem)).1 relationship hread
  | object fields ih =>
      refine ⟨fun relationship h => ?_, fun _ h => ?_⟩
      · rw [ofJson, ofNested_eq_ok_iff] at h
        obtain ⟨name, query, hquery, rfl⟩ := h
        obtain ⟨hfilters, hrelated⟩ := parts_of_nestedOfFields hquery
        refine readsAs_nested_self (Query.readsAs_self_of_read ?_ ?_)
        · intro nodes hnodes
          obtain ⟨item, hitem, hread⟩ := Json.exists_of_decodePart (hnodes ▸ hfilters)
          exact ⟨item, hvalue.of_mem_fields hitem, hread⟩
        · intro row hrow
          rw [fieldOfJson_eq, hrow] at hrelated
          obtain ⟨item, hitem, hread⟩ := Json.exists_of_decodePart hrelated
          have hpart : partOfJson item = .ok (some row) := by
            rw [partOfJson_eq]
            obtain ⟨items, rfl, -⟩ := Json.decodeList_eq_ok_iff.mp hread
            rw [Json.decodeOption_of_ne_null (by simp), hread]
            rfl
          exact (ih _ hitem (hvalue.of_mem_fields hitem)).2 row hpart
      · cases h

end Relationship

/-- A query that was read from parameters reads as itself once it is written. -/
theorem Query.readsAs_self_of_ofParams {names : Names} {params : Params} {query : Query}
    (hparams : (Json.object params).Ordered) (h : Query.ofParams names params = .ok query) :
    ReadsAs order query query := by
  simp only [ofParams, bind_eq_ok_iff, pure_eq_ok_iff] at h
  obtain ⟨columns, -, filters, hfilters, related, hrelated, rfl⟩ := h
  refine readsAs_self_of_read ?_ ?_
  · rintro nodes rfl
    obtain ⟨value, hvalue, hread⟩ := Json.exists_of_decodeField? hfilters
    exact ⟨value, hparams.of_mem_fields hvalue, hread⟩
  · rintro row rfl relationship hmem
    obtain ⟨value, hvalue, hread⟩ := Json.exists_of_decodeField? hrelated
    obtain ⟨items, rfl, item, hitem, hitemRead⟩ := Json.exists_of_decodeList hread hmem
    have hitems := hparams.of_mem_fields hvalue
    exact (Relationship.readsAs_self_of_read (hitems.of_mem_items hitem)).1 relationship hitemRead

end Read

/-! ## Parameters -/

/-- Parameters in the form in which they are written: they are read, and what was read is written
again. -/
def Params.normalize (names : Names) (params : Params) : Decoded Params :=
  Query.toParams names <$> Query.ofParams names params

/-- **Parameters are read into a stable query.** Whatever way they were spelled, all compact forms
of the query that is read are well formed, at every depth, and the query comes back from its own
parameters. So parameters in normal form stay as they are when they are normalized. -/
theorem Query.ofParams_stable {names : Names} (h : names.areDistinct = true) {params : Params}
    (hparams : (Json.object params).Ordered) :
    (∀ query, Query.ofParams names params = .ok query →
      (∀ below ∈ query.included, below.WellFormed)
      ∧ Query.ofParams names (query.toParams names) = .ok query)
    ∧ ∀ normal, Params.normalize names params = .ok normal →
      Params.normalize names normal = .ok normal := by
  have hself : ∀ query, Query.ofParams names params = .ok query →
      ReadsAs .ascending query query := fun query hquery =>
    readsAs_self_of_ofParams hparams hquery
  have hback : ∀ query, Query.ofParams names params = .ok query →
      Query.ofParams names (query.toParams names) = .ok query := fun query hquery =>
    (ofParams_toParams_eq_ok_iff h).mpr (hself query hquery)
  refine ⟨fun query hquery => ⟨?_, hback query hquery⟩, fun normal hnormal => ?_⟩
  · exact (readsAs_self_iff.mp (hself query hquery)).1
  · -- normal parameters are those of such a query
    obtain ⟨query, hquery, rfl⟩ := map_eq_ok_iff.mp hnormal
    rw [Params.normalize, hback query hquery]
    rfl

/-- Arrays for objects, a join as an object, a number above the range of arguments, null for absent
parts, a field of its own and a parameter that is no part of a query. -/
theorem Query.ofParams_stable_spellings :
    let params : Params :=
      [("filters", .array
          [.array [.string "where", .array [.string "a", .number (.int 9223372036854775808)]],
            .object [("or", .null)],
            .object [("args", .array []), ("note", .null),
              ("type", .object [("notNull", .null)])]]),
        ("page", .number (.float 1.5)),
        ("relationships", .array
          [.string "a:b", .array [.string "c:d", .null, .null, .array [.string "e"]]])]
    let query : Query :=
      ⟨none, some [.condition ⟨.comparison,
            [.string "a", .float (9223372036854775808 : Int).toNat.toUInt64.toFloat]⟩,
          .join .or, .condition ⟨.isNotNull, []⟩],
        some [.scoped "a" ["b"], .nested "c:d" ⟨none, none, some [.bare "e"]⟩]⟩
    (Json.object params).Ordered
      ∧ Query.ofParams .standard params = .ok query
      ∧ (∀ below ∈ query.included, below.WellFormed)
      ∧ Query.ofParams .standard (query.toParams .standard) = .ok query
      ∧ Params.normalize .standard (query.toParams .standard)
        = .ok (query.toParams .standard) := by
  intro params query
  have hparams : (Json.object params).Ordered := by
    simp only [params, Json.Ordered, Json.OrderedFields, Json.OrderedItems, Ascending.Keys,
      Number.Readable]
    decide +kernel
  have hread : Query.ofParams .standard params = .ok query := rfl
  have hstable := @Query.ofParams_stable .standard (by decide) params hparams
  refine ⟨hparams, hread, (hstable.1 query hread).1, (hstable.1 query hread).2, ?_⟩
  exact hstable.2 _ (by rw [Params.normalize, hread]; rfl)

end ResourceQuery
