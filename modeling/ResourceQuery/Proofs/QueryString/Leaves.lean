import ResourceQuery.Proofs.Json.Place
import ResourceQuery.Proofs.QueryString.FormEncoding
import ResourceQuery.Proofs.QueryString.Traces

/-!
# What a query string says

The pairs of a query string are the scalars of the parameters, each with its place and its text, in
the order of their places (`pairs?_ofParams`). The places tell the indices of items from the names
of fields, which traces do not (`traces_eq_map`). Main statement: `ofParams_leaves`, which also says
of which characters a query string consists.
-/

set_option autoImplicit false

namespace ResourceQuery

/-- A step as it is written between brackets. -/
def Json.Step.text : Json.Step → String
  | .item index => toString index
  | .field name => name

namespace QueryString

/-! ## Scalars as traces -/

/-- A scalar of a value as a trace. -/
def Trace.ofLeaf (leaf : Json.Leaf) : Trace :=
  ⟨leaf.steps.map Json.Step.text, scalarText leaf.value⟩

mutual

/-- The traces of a value are those of its scalars. -/
theorem traces_eq_map : ∀ value : Json, traces value = value.scalars.map Trace.ofLeaf
  | .null => rfl
  | .bool _ => rfl
  | .number _ => rfl
  | .string _ => rfl
  | .array items => itemTraces_eq_map 0 items
  | .object fields => fieldTraces_eq_map fields

theorem itemTraces_eq_map (index : Nat) :
    ∀ items : List Json, itemTraces index items
      = (Json.itemScalars index items).map Trace.ofLeaf
  | [] => rfl
  | item :: rest => by
      rw [itemTraces, Json.itemScalars, traces_eq_map, itemTraces_eq_map, List.map_append,
        List.map_map, List.map_map]
      rfl

theorem fieldTraces_eq_map :
    ∀ fields : List (String × Json), fieldTraces fields
      = (Json.fieldScalars fields).map Trace.ofLeaf
  | [] => rfl
  | (name, value) :: rest => by
      rw [fieldTraces, Json.fieldScalars, traces_eq_map, fieldTraces_eq_map, List.map_append,
        List.map_map, List.map_map]
      rfl

end

/-- A scalar as a pair: its place in brackets, and its text. -/
def pairOf (leaf : Json.Leaf) : String × String :=
  (place (leaf.steps.map Json.Step.text), scalarText leaf.value)

theorem pairs?_ofParams (params : Params) :
    pairs? (ofParams params) = some ((Json.object params).scalars.map pairOf) := by
  have hleaves : paramLeaves params = (Json.object params).scalars.map pairOf :=
    calc paramLeaves params
        = (fieldTraces params).map Trace.pair := paramLeaves_eq params
      _ = ((Json.fieldScalars params).map Trace.ofLeaf).map Trace.pair := by
          rw [fieldTraces_eq_map]
      _ = (Json.fieldScalars params).map pairOf := by
          rw [List.map_map]
          rfl
      _ = (Json.object params).scalars.map pairOf := by rw [Json.scalars]
  rw [ofParams, pairs?_ofPairs, hleaves]

/-! ## Characters -/

/-- A character of a query string: an ASCII letter or digit, or one of eight marks. -/
def IsQueryChar (c : Char) : Prop :=
  c.isAlphanum = true ∨ c ∈ ['*', '-', '.', '_', '+', '%', '=', '&']

theorem isQueryChar_of_isPlain {c : Char} (h : isPlain c = true) : IsQueryChar c := by
  have halphanum : c.isAlphanum = (c.isUpper || c.isLower || c.isDigit) := rfl
  simp only [isPlain, Bool.or_eq_true, Bool.and_eq_true, decide_eq_true_eq] at h
  rcases h with (((((hlower | hupper) | hdigit) | rfl) | rfl) | rfl) | rfl
  · have hletter : c.isLower = true :=
      Bool.and_eq_true_iff.mpr ⟨decide_eq_true hlower.1, decide_eq_true hlower.2⟩
    exact .inl (by rw [halphanum, hletter, Bool.or_true, Bool.true_or])
  · have hletter : c.isUpper = true := decide_eq_true ⟨hupper.1, hupper.2⟩
    exact .inl (by rw [halphanum, hletter, Bool.true_or, Bool.true_or])
  · have hnumber : c.isDigit = true :=
      Bool.and_eq_true_iff.mpr ⟨decide_eq_true hdigit.1, decide_eq_true hdigit.2⟩
    exact .inl (by rw [halphanum, hnumber, Bool.or_true])
  all_goals exact .inr (by decide)

theorem isQueryChar_of_mem_encode {text : String} {c : Char} (h : c ∈ encode text) :
    IsQueryChar c := by
  rcases of_mem_encode h with hplain | rfl | rfl
  · exact isQueryChar_of_isPlain hplain
  · exact .inr (by decide)
  · exact .inr (by decide)

theorem isQueryChar_of_mem_ofPairs {pairs : List (String × String)} {c : Char}
    (h : c ∈ (ofPairs pairs).toList) : IsQueryChar c := by
  rw [ofPairs, String.toList_ofList] at h
  rcases Text.of_mem_intercalate h with rfl | ⟨piece, hpiece, hc⟩
  · exact .inr (by decide)
  · obtain ⟨pair, -, rfl⟩ := List.mem_map.mp hpiece
    rw [encodePair, List.mem_append, List.mem_cons] at hc
    rcases hc with hname | rfl | htext
    · exact isQueryChar_of_mem_encode hname
    · exact .inr (by decide)
    · exact isQueryChar_of_mem_encode htext

/-! ## What is read from a query string -/

/-- **A query string says where each scalar is.** The pairs that are read from it are the scalars of
the parameters, one for each place that has one, in the order of the places; it has letters, digits
and eight marks only. -/
theorem ofParams_leaves {params : Params} (h : (Json.object params).Ordered) :
    (∃ leaves : List Json.Leaf,
      pairs? (ofParams params) = some (leaves.map pairOf)
        ∧ (∀ leaf, leaf ∈ leaves
          ↔ (Json.object params).follow? leaf.steps = some leaf.value ∧ leaf.value.IsScalar)
        ∧ (leaves.Pairwise fun leaf leaf' => Json.Earlier leaf.steps leaf'.steps)
        ∧ (leaves.map Json.Leaf.steps).Nodup)
      ∧ ∀ c ∈ (ofParams params).toList, IsQueryChar c := by
  have hordered := Json.pairwise_scalars h
  refine ⟨⟨_, pairs?_ofParams params, fun leaf => Json.mem_scalars_iff h, hordered, ?_⟩,
    fun c => isQueryChar_of_mem_ofPairs⟩
  exact List.pairwise_map.mpr (hordered.imp Json.Earlier.ne)

/-- Marks inside of names and texts do not split them, and the text of null is empty. -/
theorem ofParams_leaves_marks :
    let params : Params := [("a&b", .object [("x", .array [.null, .array [], .string "1=2&3+ é"])])]
    (Json.object params).Ordered
      ∧ (∃ pairs, pairs? (ofParams params) = some pairs
        ∧ ("a&b[x][0]", "") ∈ pairs ∧ ("a&b[x][2]", "1=2&3+ é") ∈ pairs)
      ∧ ∀ c ∈ (ofParams params).toList, IsQueryChar c := by
  intro params
  have hordered : (Json.object params).Ordered := by
    simp only [params, Json.Ordered, Json.OrderedFields, Json.OrderedItems, Ascending.Keys]
    decide
  obtain ⟨⟨leaves, hpairs, hmem, -, -⟩, hchars⟩ := ofParams_leaves hordered
  have hnull := (hmem ⟨[.field "a&b", .field "x", .item 0], .null⟩).mpr ⟨rfl, trivial⟩
  have htext := (hmem ⟨[.field "a&b", .field "x", .item 2], .string "1=2&3+ é"⟩).mpr
    ⟨rfl, trivial⟩
  refine ⟨hordered, ⟨_, hpairs, ?_, ?_⟩, hchars⟩
  · exact List.mem_map.mpr ⟨_, hnull, by decide +kernel⟩
  · exact List.mem_map.mpr ⟨_, htext, by decide +kernel⟩

end QueryString

end ResourceQuery
