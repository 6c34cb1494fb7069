import ResourceQuery.ErrorTree.Content
import ResourceQuery.Proofs.ErrorTree.Shape
import ResourceQuery.Proofs.Text.Pieces

/-!
# Lists as arrays

A list is written as an array that has its items at their indices and null between them
(`positions_zero`), unless one of its indices is too large. The indices of a list that expansion
gives are not, so its array is no longer than `maxListIndex` allows (`holdsItems_positions`). Lists
that are built by hand may have any indices, and one that is too long for an array has a field for
each of its items (`spread_perm`): main statement `writesList_toJson`.
-/

set_option autoImplicit false

namespace ResourceQuery.ErrorTree

variable {items : List (Nat × ErrorTree)}

/-! ## Arrays of items -/

/-- The number of positions of an array that has the items of a list at their indices. -/
def positionCount (items : List (Nat × ErrorTree)) : Nat := (lastIndex? items).elim 0 (· + 1)

/-- What an array has at a position: the item with that index, or null. -/
def positionValue (items : List (Nat × ErrorTree)) (index : Nat) : Json :=
  ((Ascending.get? index items).map toJson).getD .null

/-- A tree is written as an array or as an object. -/
theorem toJson_shape (tree : ErrorTree) :
    (∃ values, tree.toJson = .array values) ∨ ∃ fields, tree.toJson = .object fields := by
  cases tree with
  | messages texts => exact .inl ⟨texts.map .string, by rw [toJson]⟩
  | list items =>
      rw [toJson]
      cases isSpread items with
      | true => exact .inr ⟨_, rfl⟩
      | false => exact .inl ⟨_, rfl⟩
  | map fields => exact .inr ⟨fieldsToJson fields, by rw [toJson]⟩

theorem toJson_ne_null (tree : ErrorTree) : tree.toJson ≠ .null := by
  rcases toJson_shape tree with ⟨values, hvalue⟩ | ⟨fields, hvalue⟩
  · rw [hvalue]
    nofun
  · rw [hvalue]
    nofun

theorem toJson_ne_string (tree : ErrorTree) (text : String) : tree.toJson ≠ .string text := by
  rcases toJson_shape tree with ⟨values, hvalue⟩ | ⟨fields, hvalue⟩
  · rw [hvalue]
    nofun
  · rw [hvalue]
    nofun

theorem positionCount_cons {index : Nat} {tree : ErrorTree} {rest : List (Nat × ErrorTree)}
    (hkeys : Ascending.Keys ((index, tree) :: rest)) :
    positionCount ((index, tree) :: rest) = max (index + 1) (positionCount rest) := by
  -- the indices ascend, so the last one is the greatest
  have habove := (List.pairwise_cons.mp hkeys).1
  cases hlast : lastIndex? rest with
  | none =>
      obtain rfl : rest = [] := lastIndex?_eq_none_iff.mp hlast
      show index + 1 = max (index + 1) 0
      omega
  | some last =>
      have hlt : index < last := habove last (mem_of_lastIndex? hlast)
      have hcons : lastIndex? ((index, tree) :: rest) = some last := by
        cases rest with
        | nil => cases hlast
        | cons item more => exact hlast
      simp only [positionCount, hlast, hcons, Option.elim_some]
      omega

/-- Below the first index there are no items. -/
theorem positionValue_of_lt {index : Nat} (h : ∀ i ∈ items.map Prod.fst, index < i) :
    positionValue items index = .null := by
  have hnone : Ascending.get? index items = none :=
    Ascending.get?_eq_none fun hmem => Nat.lt_irrefl _ (h index hmem)
  rw [positionValue, hnone]
  rfl

/-- A range around an index: what is below it, the index itself, and what is above it. -/
theorem range'_split {next index : Nat} (h : next ≤ index) (count : Nat) :
    List.range' next (max (index + 1) count - next)
      = List.range' next (index - next)
        ++ index :: List.range' (index + 1) (count - (index + 1)) := by
  have hcount : max (index + 1) count - next
      = (index - next) + (1 + (count - (index + 1))) := by omega
  have hstart : next + (index - next) = index := by omega
  calc List.range' next (max (index + 1) count - next)
      = List.range' next ((index - next) + (1 + (count - (index + 1)))) := by rw [hcount]
    _ = List.range' next (index - next) ++ List.range' index (1 + (count - (index + 1))) := by
        rw [← List.range'_append_1, hstart]
    _ = List.range' next (index - next)
        ++ index :: List.range' (index + 1) (count - (index + 1)) := by
        rw [Nat.add_comm 1, List.range'_succ]

/-- The array of a list has a position for each index up to the last one. -/
theorem positions_eq (hkeys : Ascending.Keys items) {next : Nat}
    (hnext : ∀ index ∈ items.map Prod.fst, next ≤ index) :
    positions next items
      = (List.range' next (positionCount items - next)).map (positionValue items) := by
  induction items generalizing next with
  | nil =>
      have hzero : positionCount [] - next = 0 := Nat.zero_sub next
      rw [positions, hzero, List.range'_zero, List.map_nil]
  | cons item rest ih =>
      obtain ⟨index, tree⟩ := item
      obtain ⟨habove, hrest⟩ := List.pairwise_cons.mp hkeys
      have hle : next ≤ index := hnext index List.mem_cons_self
      -- the positions before the item, its own, and those behind it
      have hsplit := range'_split hle (positionCount rest)
      have hbefore : (List.range' next (index - next)).map (positionValue ((index, tree) :: rest))
          = List.replicate (index - next) .null := by
        refine List.eq_replicate_iff.mpr ⟨by simp, fun value hvalue => ?_⟩
        obtain ⟨position, hposition, rfl⟩ := List.mem_map.mp hvalue
        have hlt : position < index := by
          have := List.mem_range'_1.mp hposition
          omega
        refine positionValue_of_lt (List.forall_mem_cons.mpr ⟨hlt, fun i hi => ?_⟩)
        exact Nat.lt_trans hlt (habove i hi)
      have hown : positionValue ((index, tree) :: rest) index = tree.toJson := by
        simp [positionValue, Ascending.get?]
      have hbehind : (List.range' (index + 1) (positionCount rest - (index + 1))).map
            (positionValue ((index, tree) :: rest))
          = positions (index + 1) rest := by
        rw [ih hrest fun i hi => habove i hi]
        refine List.map_congr_left fun position hposition => ?_
        have hne : index ≠ position := by
          have := List.mem_range'_1.mp hposition
          omega
        simp [positionValue, Ascending.get?, hne]
      rw [positions, positionCount_cons hkeys, hsplit, List.map_append, List.map_cons, hbefore,
        hown, hbehind]

theorem positions_zero (hkeys : Ascending.Keys items) :
    positions 0 items = (List.range (positionCount items)).map (positionValue items) := by
  rw [positions_eq hkeys fun index _ => Nat.zero_le index, List.range_eq_range', Nat.sub_zero]

theorem length_positions (hkeys : Ascending.Keys items) :
    (positions 0 items).length = positionCount items := by
  rw [positions_zero hkeys, List.length_map, List.length_range]

theorem getElem?_positions (hkeys : Ascending.Keys items) {index : Nat}
    (hindex : index < positionCount items) :
    (positions 0 items)[index]? = some (positionValue items index) := by
  rw [positions_zero hkeys, List.getElem?_map, List.getElem?_range hindex, Option.map_some]

theorem positionValue_of_mem (hkeys : Ascending.Keys items) {item : Nat × ErrorTree}
    (hitem : item ∈ items) : positionValue items item.1 = item.2.toJson := by
  rw [positionValue, Ascending.get?_of_mem (Ascending.nodup_of_ascending hkeys) hitem]
  rfl

theorem positionValue_eq_null_iff (hkeys : Ascending.Keys items) {index : Nat} :
    positionValue items index = .null ↔ index ∉ items.map Prod.fst := by
  constructor
  · intro hnull hmem
    obtain ⟨item, hitem, rfl⟩ := List.mem_map.mp hmem
    rw [positionValue_of_mem hkeys hitem] at hnull
    exact toJson_ne_null item.2 hnull
  · intro hfree
    rw [positionValue, Ascending.get?_eq_none hfree]
    rfl

/-- The items of a list as the values of an array: one for each index up to the last, which is none
too large, with the item at each index and null between them. -/
structure HoldsItems (items : List (Nat × ErrorTree)) (values : List Json) : Prop where
  length_eq : ∃ last ∈ items.map Prod.fst,
    (∀ index ∈ items.map Prod.fst, index ≤ last) ∧ values.length = last + 1
  length_le : values.length ≤ maxListIndex + 1
  last_ne_null : ∃ value, values.getLast? = some value ∧ value ≠ .null
  null_iff : ∀ index : Nat,
    values[index]? = some .null ↔ index < values.length ∧ index ∉ items.map Prod.fst
  item : ∀ item ∈ items, values[item.1]? = some item.2.toJson

/-- Every list with suitable indices is written as an array of its items. -/
theorem holdsItems_positions (hkeys : Ascending.Keys items)
    (hindices : IndicesTight (items.map Prod.fst)) : HoldsItems items (positions 0 items) := by
  obtain ⟨last, hlast⟩ := exists_lastIndex? hindices
  have hmem := mem_of_lastIndex? hlast
  have hle := le_of_lastIndex? hkeys hlast
  have hcount : positionCount items = last + 1 := by
    rw [positionCount, hlast]
    rfl
  have hlength := length_positions hkeys
  have hbelow : ∀ index ∈ items.map Prod.fst, index < positionCount items := by
    intro index hindex
    have := hle index hindex
    omega
  -- what stands at a position is decided by `positionValue`, once it is below the count
  refine ⟨⟨last, hmem, hle, hlength.trans hcount⟩, ?_, ?_, ?_, ?_⟩
  · have hsmall : last ≤ maxListIndex := hindices.2 last hmem
    omega
  · have hlt : last < positionCount items := hbelow last hmem
    have hvalue : positionValue items last ≠ .null := fun hnull =>
      (positionValue_eq_null_iff hkeys).mp hnull hmem
    refine ⟨positionValue items last, ?_, hvalue⟩
    rw [List.getLast?_eq_getElem?, hlength, hcount, Nat.add_sub_cancel,
      getElem?_positions hkeys hlt]
  · intro index
    rw [hlength]
    constructor
    · intro hnull
      have hlt : index < positionCount items := by
        obtain ⟨hlt, -⟩ := List.getElem?_eq_some_iff.mp hnull
        omega
      rw [getElem?_positions hkeys hlt, Option.some.injEq] at hnull
      exact ⟨hlt, (positionValue_eq_null_iff hkeys).mp hnull⟩
    · rintro ⟨hlt, hfree⟩
      rw [getElem?_positions hkeys hlt, (positionValue_eq_null_iff hkeys).mpr hfree]
  · intro item hitem
    have hlt := hbelow item.1 (List.mem_map_of_mem hitem)
    rw [getElem?_positions hkeys hlt, positionValue_of_mem hkeys hitem]

theorem toJson_of_tight (hkeys : Ascending.Keys items)
    (hindices : IndicesTight (items.map Prod.fst)) :
    (list items).toJson = .array (positions 0 items) := by
  rw [toJson, isSpread_of_tight hkeys hindices, if_neg Bool.false_ne_true]

/-! ## Lists of any size -/

/-- The items of a list as fields, with their indices in decimal as names. -/
def decimalFields (items : List (Nat × ErrorTree)) : List (String × Json) :=
  items.map fun item => (toString item.1, item.2.toJson)

theorem nodup_decimalFields (h : (items.map Prod.fst).Nodup) :
    ((decimalFields items).map Prod.fst).Nodup := by
  have hnames : (decimalFields items).map Prod.fst
      = (items.map Prod.fst).map fun index => toString index := by
    rw [decimalFields, List.map_map, List.map_map]
    rfl
  rw [hnames]
  exact h.map fun _ _ => Text.toString_injective

theorem keys_spread (items : List (Nat × ErrorTree)) : Ascending.Keys (spread items) := by
  induction items with
  | nil =>
      rw [spread]
      exact List.Pairwise.nil
  | cons item rest ih =>
      rw [spread]
      exact Ascending.insert_ascending ih

theorem spread_perm (h : (items.map Prod.fst).Nodup) :
    (spread items).Perm (decimalFields items) := by
  induction items with
  | nil =>
      rw [spread]
      exact .nil
  | cons item rest ih =>
      obtain ⟨index, tree⟩ := item
      have hrest := (List.nodup_cons.mp h).2
      have hnew := (List.nodup_cons.mp (nodup_decimalFields h)).1
      have hfree : toString index ∉ (spread rest).map Prod.fst := fun hmem =>
        hnew (((ih hrest).map Prod.fst).mem_iff.mp hmem)
      rw [spread]
      exact (Ascending.insert_perm hfree).trans ((ih hrest).cons _)

theorem arrayLength?_eq_none_iff : arrayLength? items = none ↔ isSpread items = true := by
  rw [arrayLength?, isSpread]
  cases lastIndex? items with
  | none => simp
  | some last => simp

/-- The length does not overflow. -/
theorem toNat_of_arrayLength? {length : UInt64} (h : arrayLength? items = some length) :
    length.toNat = positionCount items := by
  rw [arrayLength?] at h
  rw [positionCount]
  cases hlast : lastIndex? items with
  | none =>
      rw [hlast] at h
      cases h
      rfl
  | some last =>
      rw [hlast] at h
      simp only [Option.ite_none_left_eq_some, Option.some.injEq] at h
      obtain ⟨hsmall, rfl⟩ := h
      have hlimit : maxListIndex + 1 < 2 ^ 64 := by decide
      -- neither the index nor its successor is reduced
      rw [UInt64.toNat_add, UInt64.toNat_ofNat', UInt64.toNat_one, Option.elim_some]
      omega

/-- How a list is written: with the index of each item as its position in an array, if none is too
large, and else with the decimal index of each item as its name in an object. -/
inductive WritesList (items : List (Nat × ErrorTree)) : Json → Prop
  | array {values : List Json} {length : UInt64}
      (hsmall : ∀ index ∈ items.map Prod.fst, index ≤ maxListIndex)
      (hlength : arrayLength? items = some length)
      (hexact : length.toNat = (lastIndex? items).elim 0 (· + 1))
      (hvalues : values.length = length.toNat) : WritesList items (.array values)
  | object {fields : List (String × Json)}
      (hlarge : ∃ index ∈ items.map Prod.fst, maxListIndex < index)
      (hlength : arrayLength? items = none)
      (hkeys : Ascending.Keys fields)
      (hperm : fields.Perm (decimalFields items)) : WritesList items (.object fields)

theorem writesList_toJson (hkeys : Ascending.Keys items) :
    WritesList items (list items).toJson := by
  rw [toJson]
  cases hlength : arrayLength? items with
  | none =>
      have hspread := arrayLength?_eq_none_iff.mp hlength
      rw [if_pos hspread]
      exact .object ((isSpread_iff hkeys).mp hspread) hlength (keys_spread items)
        (spread_perm (Ascending.nodup_of_ascending hkeys))
  | some length =>
      have hfits : isSpread items ≠ true := fun hspread => by
        rw [arrayLength?_eq_none_iff.mpr hspread] at hlength
        cases hlength
      have hexact := toNat_of_arrayLength? hlength
      rw [if_neg hfits]
      refine .array (fun index hindex => ?_) hlength hexact
        ((length_positions hkeys).trans hexact.symm)
      -- an index above the limit would make it an object
      by_contra hlarge
      exact hfits ((isSpread_iff hkeys).mpr ⟨index, hindex, Nat.lt_of_not_le hlarge⟩)

end ResourceQuery.ErrorTree
