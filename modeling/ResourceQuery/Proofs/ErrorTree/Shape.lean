import ResourceQuery.Proofs.ErrorTree.Flatten
import ResourceQuery.Proofs.Json.Decoding

/-!
# The shape of trees

A tree is made of lists with ascending indices and of maps with ascending names. `Shaped` says so at
every depth, together with a condition on the indices of each list. Any tree that can be built by
hand has indices of 64 bits (`Ordered`). The lists of an expanded tree have at least one item, and
their indices are positions in an array (`Tight`). Main statement: `tight_expandLevel`.
-/

set_option autoImplicit false

namespace ResourceQuery.ErrorTree

/-- Indices and names ascend, and the indices of each list are as required, at every depth. -/
inductive Shaped (required : List Nat → Prop) : ErrorTree → Prop
  | messages (texts : List String) : Shaped required (.messages texts)
  | list {items : List (Nat × ErrorTree)} (hkeys : Ascending.Keys items)
      (hindices : required (items.map Prod.fst)) (hbelow : ∀ item ∈ items, Shaped required item.2) :
      Shaped required (.list items)
  | map {fields : List (String × ErrorTree)} (hkeys : Ascending.Keys fields)
      (hbelow : ∀ field ∈ fields, Shaped required field.2) : Shaped required (.map fields)

/-- Indices of 64 bits. -/
def IndicesFit (indices : List Nat) : Prop := ∀ index ∈ indices, index < Path.indexBound

/-- Indices of the items of an array: at least one, and none too large. -/
def IndicesTight (indices : List Nat) : Prop :=
  indices ≠ [] ∧ ∀ index ∈ indices, index ≤ maxListIndex

/-- A tree whose indices are numbers of 64 bits. -/
abbrev Ordered : ErrorTree → Prop := Shaped IndicesFit

/-- A tree whose lists can be written as arrays that end with an item. -/
abbrev Tight : ErrorTree → Prop := Shaped IndicesTight

section Shaped

variable {required : List Nat → Prop} {tree : ErrorTree}

theorem Shaped.of_childAt? (h : Shaped required tree) {slot : Slot} {child : ErrorTree}
    (hchild : tree.childAt? slot = some child) : Shaped required child := by
  cases h with
  | messages texts => cases hchild
  | list _ _ hbelow =>
      cases slot with
      | index index => exact hbelow _ (Ascending.mem_of_get? hchild)
      | field name => cases hchild
  | map _ hbelow =>
      cases slot with
      | index index => cases hchild
      | field name => exact hbelow _ (Ascending.mem_of_get? hchild)

/-- Every part of a tree has its shape. -/
theorem Shaped.of_atSlots? (h : Shaped required tree) {address : List Slot} {part : ErrorTree}
    (hpart : tree.atSlots? address = some part) : Shaped required part := by
  induction address generalizing tree with
  | nil =>
      rw [atSlots?, Option.some.injEq] at hpart
      exact hpart ▸ h
  | cons slot rest ih =>
      rw [atSlots?, Option.bind_eq_some_iff] at hpart
      obtain ⟨child, hchild, hpart⟩ := hpart
      exact ih (h.of_childAt? hchild) hpart

end Shaped

/-! ## Lists that are too long for an array -/

section Lists

variable {items : List (Nat × ErrorTree)}

theorem lastIndex?_eq_none_iff : lastIndex? items = none ↔ items = [] := by
  rw [lastIndex?, Option.map_eq_none_iff, List.getLast?_eq_none_iff]

/-- The last of ascending indices is the greatest. -/
theorem le_of_lastIndex? (hkeys : Ascending.Keys items) {last : Nat}
    (hlast : lastIndex? items = some last) : ∀ index ∈ items.map Prod.fst, index ≤ last := by
  intro index hindex
  have hgetLast : (items.map Prod.fst).getLast? = some last := by
    rw [List.getLast?_map]
    exact hlast
  obtain ⟨front, hfront⟩ := List.getLast?_eq_some_iff.mp hgetLast
  rw [Ascending.Keys, hfront, List.pairwise_append] at hkeys
  rw [hfront, List.mem_append, List.mem_singleton] at hindex
  rcases hindex with hmem | rfl
  · exact Nat.le_of_lt (hkeys.2.2 index hmem last (List.mem_singleton_self _))
  · exact Nat.le_refl _

theorem mem_of_lastIndex? {last : Nat} (hlast : lastIndex? items = some last) :
    last ∈ items.map Prod.fst := by
  obtain ⟨item, hitem, rfl⟩ := Option.map_eq_some_iff.mp hlast
  exact List.mem_map_of_mem (List.mem_of_getLast? hitem)

/-- A list is too long for an array when one of its indices is too large. -/
theorem isSpread_iff (hkeys : Ascending.Keys items) :
    isSpread items = true ↔ ∃ index ∈ items.map Prod.fst, maxListIndex < index := by
  rw [isSpread, Option.any_eq_true]
  constructor
  · rintro ⟨last, hlast, hlarge⟩
    exact ⟨last, mem_of_lastIndex? hlast, of_decide_eq_true hlarge⟩
  · rintro ⟨index, hindex, hlarge⟩
    cases hlast : lastIndex? items with
    | none =>
        rw [lastIndex?_eq_none_iff.mp hlast] at hindex
        cases hindex
    | some last =>
        have hle := le_of_lastIndex? hkeys hlast index hindex
        exact ⟨last, rfl, decide_eq_true (by omega)⟩

theorem isSpread_of_tight (hkeys : Ascending.Keys items)
    (hindices : IndicesTight (items.map Prod.fst)) : isSpread items = false := by
  rw [Bool.eq_false_iff, Ne, isSpread_iff hkeys]
  rintro ⟨index, hindex, hlarge⟩
  have hsmall := hindices.2 index hindex
  omega

/-- A list that can be written as an array has a last index. -/
theorem exists_lastIndex? (hindices : IndicesTight (items.map Prod.fst)) :
    ∃ last, lastIndex? items = some last := by
  refine Option.ne_none_iff_exists'.mp fun hnone => hindices.1 ?_
  rw [lastIndex?_eq_none_iff.mp hnone, List.map_nil]

end Lists

/-! ## Levels -/

/-- The slots of a level ascend, whatever the tree has at them. -/
theorem keys_map_slotsOf {κ : Type} [LT κ] [DecidableLT κ] [DecidableEq κ] [LE κ]
    [Std.IsLinearOrder κ] [Std.LawfulOrderLT κ] (find : Entry → Option κ) (level : List Entry)
    (child : κ → ErrorTree) :
    Ascending.Keys ((slotsOf find level).map fun key => (key, child key)) := by
  rw [Ascending.Keys, Ascending.map_fst_map_key]
  exact Ascending.setOf_ascending _

/-- A list level has an index, and all its indices are positions in an array. -/
theorem indicesTight_slotsOf {level : List Entry} (h : isListLevel level = true)
    (child : Nat → ErrorTree) :
    IndicesTight (((slotsOf indexSlot level).map fun index => (index, child index)).map
      Prod.fst) := by
  rw [isListLevel, Bool.and_eq_true, Bool.not_eq_true', Bool.not_eq_true'] at h
  obtain ⟨hsome, hlimit⟩ := h
  have hmem : ∀ index, index ∈ slotsOf indexSlot level ↔ index ∈ headIndices level :=
    fun index => mem_slotsOf_iff.trans List.mem_filterMap.symm
  rw [Ascending.map_fst_map_key]
  constructor
  · intro hnil
    obtain ⟨index, hindex⟩ := List.isEmpty_eq_false_iff_exists_mem.mp hsome
    rw [← hmem, hnil] at hindex
    cases hindex
  · intro index hindex
    have hsmall := List.any_eq_false.mp hlimit index ((hmem index).mp hindex)
    simpa using hsmall

theorem tight_expandLevel : ∀ level : List Entry, (expandLevel level).Tight := by
  refine level_induction fun level ih => ?_
  -- at each slot stand messages or the tree of the level below
  have hchild : ∀ slot ∈ slots level, (subtree (slotIn level) slot level).Tight := by
    intro slot hslot
    rcases subtree_cases hslot with ⟨winner, -, -, -, heq⟩ | ⟨-, -, heq⟩
    · rw [heq]
      exact .messages _
    · rw [heq]
      exact ih slot hslot
  rw [expandLevel_eq]
  cases hl : isListLevel level with
  | true =>
      rw [if_pos rfl]
      refine .list (keys_map_slotsOf _ _ _) (indicesTight_slotsOf hl _) fun item hitem => ?_
      obtain ⟨index, hindex, rfl⟩ := List.mem_map.mp hitem
      have hslot : Slot.index index ∈ slots level := by
        rw [slots, hl, if_pos rfl]
        exact List.mem_map_of_mem hindex
      rw [subtree_congr (indexSlot_eq_some_iff hl)]
      exact hchild _ hslot
  | false =>
      rw [if_neg Bool.false_ne_true]
      refine .map (keys_map_slotsOf _ _ _) fun field hfield => ?_
      obtain ⟨name, hname, rfl⟩ := List.mem_map.mp hfield
      have hslot : Slot.field name ∈ slots level := by
        rw [slots, hl, if_neg Bool.false_ne_true]
        exact List.mem_map_of_mem hname
      rw [subtree_congr (nameSlot_eq_some_iff hl)]
      exact hchild _ hslot

end ResourceQuery.ErrorTree
