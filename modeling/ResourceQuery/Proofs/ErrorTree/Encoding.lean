import ResourceQuery.ErrorTree.Payload
import ResourceQuery.Proofs.ErrorTree.Positions
import ResourceQuery.Proofs.Json.Legible
import ResourceQuery.Proofs.Query.Rendering

/-!
# Trees have a data value

A tree of messages, of lists with ascending indices and of maps with ascending names offers nothing
that cannot be encoded, and its data value is the one that `toJson` gives (`encodes_of_shaped`).
Main statement: expanding flat errors fails only where they are not flat errors (`expandJson_eq`).
-/

set_option autoImplicit false

namespace ResourceQuery

namespace ErrorTree

/-! ## Trees that encode -/

/-- The data value of a tree can be encoded. -/
def Encodes (tree : ErrorTree) : Prop := tree.encode = .ok tree.toJson

theorem encodes_messages (texts : List String) : (messages texts).Encodes := by
  have hrow : (Content.row (texts.map .text)).toJson = .ok (.array (texts.map .string)) :=
    Content.toJson_row fun text _ => by rw [Content.toJson]
  rw [Encodes, encode, content, toJson, hrow]

/-! ## Lists -/

section Lists

variable {items : List (Nat × ErrorTree)}

theorem itemContents_eq_map (items : List (Nat × ErrorTree)) :
    itemContents items = items.map fun item => (item.1, item.2.content) := by
  induction items with
  | nil => rw [itemContents, List.map_nil]
  | cons item rest ih => rw [itemContents, ih, List.map_cons]

theorem get?_itemContents (index : Nat) (items : List (Nat × ErrorTree)) :
    Ascending.get? index (itemContents items) = (Ascending.get? index items).map content := by
  induction items with
  | nil => rw [itemContents, Ascending.get?_nil, Ascending.get?_nil, Option.map_none]
  | cons item rest ih =>
      obtain ⟨index', tree⟩ := item
      rw [itemContents, Ascending.get?, Ascending.get?, ih]
      split
      · rfl
      · rfl

/-- A list that fits in an array: each position has the item with its index, or null. -/
theorem encodes_list (hkeys : Ascending.Keys items) {length : UInt64}
    (hlength : arrayLength? items = some length) (h : ∀ item ∈ items, item.2.Encodes) :
    (list items).Encodes := by
  -- position by position the content is the value that is written
  have hvalue : ∀ index ∈ List.range length.toNat,
      ((Ascending.get? index (itemContents items)).getD .null).toJson
        = .ok (positionValue items index) := by
    intro index _
    rw [get?_itemContents, positionValue]
    cases hget : Ascending.get? index items with
    | none => rw [Option.map_none, Option.map_none, Option.getD_none, Content.toJson]; rfl
    | some tree => exact h _ (Ascending.mem_of_get? hget)
  have hfits : isSpread items = false := by
    rw [Bool.eq_false_iff, Ne, ← arrayLength?_eq_none_iff, hlength]
    exact Option.some_ne_none length
  rw [Encodes, encode, content, toJson, hlength, hfits, if_neg Bool.false_ne_true,
    positions_zero hkeys, ← toNat_of_arrayLength? hlength]
  exact Content.toJson_row hvalue

theorem decimalContents_give (h : ∀ item ∈ items, item.2.Encodes) :
    List.Forall₂ Content.FieldGives
      ((itemContents items).map fun item => (toString item.1, item.2)) (decimalFields items) := by
  rw [itemContents_eq_map, decimalFields, List.map_map]
  refine List.forall₂_map_left_iff.mpr (List.forall₂_map_right_iff.mpr ?_)
  exact List.forall₂_same.mpr fun item hitem => ⟨rfl, h item hitem⟩

/-- A list that is too long for an array. Its fields are put in the order of their names. -/
theorem encodes_spread (hkeys : Ascending.Keys items) (hlength : arrayLength? items = none)
    (h : ∀ item ∈ items, item.2.Encodes) : (list items).Encodes := by
  have hnodup := Ascending.nodup_of_ascending hkeys
  have hsame : Ascending.ofPairs (decimalFields items) = spread items :=
    Ascending.eq_of_perm (Ascending.ofPairs_ascending _) (keys_spread items)
      ((Ascending.ofPairs_perm (nodup_decimalFields hnodup)).trans (spread_perm hnodup).symm)
  rw [Encodes, encode, content, toJson, hlength, arrayLength?_eq_none_iff.mp hlength, if_pos rfl,
    Content.toJson_fields (decimalContents_give h), FieldOrder.object, hsame]

end Lists

/-! ## Maps -/

theorem fieldContents_give {fields : List (String × ErrorTree)}
    (h : ∀ field ∈ fields, field.2.Encodes) :
    List.Forall₂ Content.FieldGives (fieldContents fields) (fieldsToJson fields) := by
  induction fields with
  | nil =>
      rw [fieldContents, fieldsToJson]
      exact .nil
  | cons field rest ih =>
      obtain ⟨htree, hrest⟩ := List.forall_mem_cons.mp h
      rw [fieldContents, fieldsToJson]
      exact .cons ⟨rfl, htree⟩ (ih hrest)

theorem map_fst_fieldsToJson (fields : List (String × ErrorTree)) :
    (fieldsToJson fields).map Prod.fst = fields.map Prod.fst := by
  induction fields with
  | nil => rw [fieldsToJson, List.map_nil, List.map_nil]
  | cons field rest ih => rw [fieldsToJson, List.map_cons, List.map_cons, ih]

/-- A map, whose names ascend already as encoding would put them. -/
theorem encodes_map {fields : List (String × ErrorTree)} (hkeys : Ascending.Keys fields)
    (h : ∀ field ∈ fields, field.2.Encodes) : (map fields).Encodes := by
  have hsame : FieldOrder.ascending.object (fieldsToJson fields)
      = .object (fieldsToJson fields) := by
    have hvalues : Ascending.Keys (fieldsToJson fields) := by
      rw [Ascending.Keys, map_fst_fieldsToJson]
      exact hkeys
    rw [FieldOrder.object, Ascending.ofPairs_of_keys hvalues]
  rw [Encodes, encode, content, toJson, Content.toJson_fields (fieldContents_give h), hsame]

/-! ## Trees and flat errors -/

/-- Every tree encodes, as long as its indices and names ascend. -/
theorem encodes_of_shaped {required : List Nat → Prop} {tree : ErrorTree}
    (h : Shaped required tree) : tree.Encodes := by
  induction h with
  | messages texts => exact encodes_messages texts
  | @list items hkeys _ _ ih =>
      cases hlength : arrayLength? items with
      | none => exact encodes_spread hkeys hlength ih
      | some length => exact encodes_list hkeys hlength ih
  | map hkeys _ ih => exact encodes_map hkeys ih

/-- Flat errors as a data value are expanded whenever they can be read. -/
theorem expandJson_eq (errors : Json) :
    expandJson errors = (fun flat => (expand flat).toJson) <$> FlatErrors.ofJson errors := by
  rw [expandJson]
  cases FlatErrors.ofJson errors with
  | error error => rfl
  | ok flat =>
      have hencodes : (expand flat).encode = .ok (expand flat).toJson :=
        encodes_of_shaped (tight_expandLevel _)
      show (expand flat).encode.mapError DecodeError.notEncoded = .ok (expand flat).toJson
      rw [hencodes]
      rfl

end ErrorTree

end ResourceQuery
