import ResourceQuery.Proofs.ErrorTree.Encoding
import ResourceQuery.Proofs.Json.Place
import ResourceQuery.Proofs.Query.ReadBack

/-!
# Trees are read back from what they are written as

`ErrorTree.ofJson?` reads a tree from a data value: an array of texts is a row of messages, any
other array is a list in which null is no item, and an object is a map. The tree of flat errors is
read back as it was, since none of its lists is empty (`Tight.ofJson?_toJson`). Main statement:
`toJson_faithful`, about the trees of flat errors and about the lists of all trees.
-/

set_option autoImplicit false

namespace ResourceQuery.ErrorTree

variable {items : List (Nat × ErrorTree)}

/-! ## Places -/

/-- A slot as a step into a data value. -/
def Slot.step : Slot → Json.Step
  | .index value => .item value
  | .field name => .field name

theorem get?_fieldsToJson (name : String) (fields : List (String × ErrorTree)) :
    Ascending.get? name (fieldsToJson fields) = (Ascending.get? name fields).map toJson := by
  induction fields with
  | nil => rfl
  | cons field rest ih =>
      obtain ⟨other, tree⟩ := field
      rw [fieldsToJson, Ascending.get?, Ascending.get?, ih]
      by_cases hname : other = name
      · rw [if_pos hname, if_pos hname, Option.map_some]
      · rw [if_neg hname, if_neg hname]

/-- What a tree has at a slot its data value has one step down. -/
theorem Tight.child?_toJson {tree : ErrorTree} (h : tree.Tight) {slot : Slot} {child : ErrorTree}
    (hchild : tree.childAt? slot = some child) :
    tree.toJson.child? slot.step = some child.toJson := by
  cases h with
  | messages texts => cases hchild
  | list hkeys hindices hbelow =>
      cases slot with
      | field name => cases hchild
      | index index =>
          rw [toJson_of_tight hkeys hindices]
          exact (holdsItems_positions hkeys hindices).item _ (Ascending.mem_of_get? hchild)
  | map hkeys hbelow =>
      cases slot with
      | index index => cases hchild
      | field name =>
          rw [toJson]
          show Ascending.get? name (fieldsToJson _) = some child.toJson
          rw [get?_fieldsToJson]
          exact congrArg (Option.map toJson) hchild

/-- The data value of a part is in that of the tree, at the place that its address gives. -/
theorem Tight.follow?_toJson {tree : ErrorTree} (h : tree.Tight) {address : List Slot}
    {part : ErrorTree} (hpart : tree.atSlots? address = some part) :
    tree.toJson.follow? (address.map Slot.step) = some part.toJson := by
  induction address generalizing tree with
  | nil =>
      rw [atSlots?, Option.some.injEq] at hpart
      rw [hpart]
      rfl
  | cons slot rest ih =>
      rw [atSlots?, Option.bind_eq_some_iff] at hpart
      obtain ⟨child, hchild, hpart⟩ := hpart
      rw [List.map_cons, Json.follow?_cons_eq_some_iff]
      exact ⟨child.toJson, h.child?_toJson hchild, ih (h.of_childAt? hchild) hpart⟩

/-! ## Reading trees -/

mutual

/-- The tree that a data value writes: an array of texts is a row of messages, any other array a
list in which null is no item, and an object a map. -/
def ofJson? : Json → Option ErrorTree
  | .array values =>
    match Json.decodeEach Json.decodeString values with
    | .ok texts => some (.messages texts)
    | .error _ => (itemsOfJson? 0 values).map .list
  | .object fields => (fieldsOfJson? fields).map .map
  | _ => none

def itemsOfJson? (index : Nat) : List Json → Option (List (Nat × ErrorTree))
  | [] => some []
  | .null :: rest => itemsOfJson? (index + 1) rest
  | value :: rest => do
    let tree ← ofJson? value
    let items ← itemsOfJson? (index + 1) rest
    return (index, tree) :: items

def fieldsOfJson? : List (String × Json) → Option (List (String × ErrorTree))
  | [] => some []
  | (name, value) :: rest => do
    let tree ← ofJson? value
    let fields ← fieldsOfJson? rest
    return (name, tree) :: fields

end

theorem itemsOfJson?_nulls (count index : Nat) (rest : List Json) :
    itemsOfJson? index (List.replicate count .null ++ rest)
      = itemsOfJson? (index + count) rest := by
  induction count generalizing index with
  | zero => rfl
  | succ count ih =>
      rw [List.replicate_succ, List.cons_append, itemsOfJson?, ih, Nat.add_right_comm]
      rfl

theorem itemsOfJson?_cons {value : Json} (h : value ≠ .null) (index : Nat) (rest : List Json) :
    itemsOfJson? index (value :: rest) = (do
      let tree ← ofJson? value
      let items ← itemsOfJson? (index + 1) rest
      return (index, tree) :: items) := by
  cases value with
  | null => exact absurd rfl h
  | _ => rw [itemsOfJson?]; nofun

/-- The items of a list are read from the positions of its array. -/
theorem itemsOfJson?_positions (hkeys : Ascending.Keys items)
    (hread : ∀ item ∈ items, ofJson? item.2.toJson = some item.2) {next : Nat}
    (hnext : ∀ index ∈ items.map Prod.fst, next ≤ index) :
    itemsOfJson? next (positions next items) = some items := by
  induction items generalizing next with
  | nil => rw [positions, itemsOfJson?]
  | cons item rest ih =>
      obtain ⟨index, tree⟩ := item
      obtain ⟨habove, hrest⟩ := List.pairwise_cons.mp hkeys
      obtain ⟨htree, hread⟩ := List.forall_mem_cons.mp hread
      -- nulls fill up the positions before the first item, and are no items
      have hindex : next + (index - next) = index :=
        Nat.add_sub_of_le (hnext index List.mem_cons_self)
      have htail : itemsOfJson? (index + 1) (positions (index + 1) rest) = some rest :=
        ih hrest hread fun i hi => habove i hi
      rw [positions, itemsOfJson?_nulls, hindex, itemsOfJson?_cons (toJson_ne_null tree), htree,
        htail]
      rfl

theorem fieldsOfJson?_fieldsToJson {fields : List (String × ErrorTree)}
    (hread : ∀ field ∈ fields, ofJson? field.2.toJson = some field.2) :
    fieldsOfJson? (fieldsToJson fields) = some fields := by
  induction fields with
  | nil => rw [fieldsToJson, fieldsOfJson?]
  | cons field rest ih =>
      obtain ⟨hfield, hrest⟩ := List.forall_mem_cons.mp hread
      rw [fieldsToJson, fieldsOfJson?, hfield, ih hrest]
      rfl

/-- The array of a list is no row of texts. -/
theorem exists_error_of_positions (hkeys : Ascending.Keys items)
    (hindices : IndicesTight (items.map Prod.fst)) :
    ∃ error, Json.decodeEach Json.decodeString (positions 0 items) = .error error := by
  cases hread : Json.decodeEach Json.decodeString (positions 0 items) with
  | error error => exact ⟨error, rfl⟩
  | ok texts =>
      have hstrings : Json.array (positions 0 items) = stringsToJson texts :=
        decodeStrings_eq_ok_iff.mp hread
      -- a list of this kind has an item, and no tree is written as a text
      obtain ⟨item, hitem⟩ := List.exists_mem_of_ne_nil items fun hnil =>
        hindices.1 (congrArg (List.map Prod.fst) hnil)
      have hmem : item.2.toJson ∈ positions 0 items :=
        List.mem_of_getElem? ((holdsItems_positions hkeys hindices).item item hitem)
      rw [Json.array.inj hstrings] at hmem
      obtain ⟨text, -, htext⟩ := List.mem_map.mp hmem
      exact absurd htext.symm (toJson_ne_string _ _)

/-- The tree of flat errors is read from its data value. -/
theorem Tight.ofJson?_toJson {tree : ErrorTree} (h : tree.Tight) :
    ofJson? tree.toJson = some tree := by
  induction h with
  | messages texts =>
      have hread : Json.decodeEach Json.decodeString (texts.map .string) = .ok texts :=
        decodeStrings_eq_ok_iff.mpr rfl
      rw [toJson, ofJson?, hread]
  -- an array of items is not read as messages, since an item is no text
  | @list items hkeys hindices _ ih =>
      obtain ⟨error, herror⟩ := exists_error_of_positions hkeys hindices
      have hitems : itemsOfJson? 0 (positions 0 items) = some items :=
        itemsOfJson?_positions hkeys ih fun index _ => Nat.zero_le index
      rw [toJson_of_tight hkeys hindices, ofJson?, herror, hitems, Option.map_some]
  | map _ _ ih => rw [toJson, ofJson?, fieldsOfJson?_fieldsToJson ih, Option.map_some]

/-! ## What is written -/

/-- **Data values tell trees apart.** The tree of flat errors is read back from its data value, in
which every list is an array of its items, as long as its last index requires and never longer than
`maxListIndex` allows. Any other tree has a data value as well: the length of an array does not
overflow, whatever the indices are, and a list with an index that is too large for an array has a
field for each of its items. -/
theorem toJson_faithful :
    (∀ errors : FlatErrors,
      (expand errors).encode = .ok (expand errors).toJson
        ∧ ofJson? (expand errors).toJson = some (expand errors)
        ∧ (∀ errors' : FlatErrors,
          (expand errors).toJson = (expand errors').toJson → expand errors = expand errors')
        ∧ ∀ address items, (expand errors).atSlots? address = some (.list items) →
          ∃ values, (expand errors).toJson.follow? (address.map Slot.step) = some (.array values)
            ∧ HoldsItems items values)
      ∧ ∀ tree : ErrorTree, tree.Ordered →
        tree.encode = .ok tree.toJson
          ∧ ∀ address items, tree.atSlots? address = some (.list items) →
            WritesList items (list items).toJson := by
  constructor
  · -- expanded trees
    intro errors
    have htight : (expand errors).Tight := tight_expandLevel _
    refine ⟨encodes_of_shaped htight, htight.ofJson?_toJson, fun errors' heq => ?_, ?_⟩
    · -- both trees are read from the one data value
      have htight' : (expand errors').Tight := tight_expandLevel _
      have hread := htight.ofJson?_toJson
      rw [heq, htight'.ofJson?_toJson] at hread
      exact (Option.some.inj hread).symm
    · intro address items hpart
      obtain ⟨_⟩ | ⟨hkeys, hindices, -⟩ := htight.of_atSlots? hpart
      refine ⟨positions 0 items, ?_, holdsItems_positions hkeys hindices⟩
      rw [htight.follow?_toJson hpart, toJson_of_tight hkeys hindices]
  · -- trees of any other make
    intro tree hordered
    refine ⟨encodes_of_shaped hordered, fun address items hpart => ?_⟩
    obtain ⟨_⟩ | ⟨hkeys, -, -⟩ := hordered.of_atSlots? hpart
    exact writesList_toJson hkeys

/-- Two nulls stand before the item with index two, however the index is spelled, and the greatest
index of 64 bits is written as a name. -/
theorem toJson_faithful_extremes :
    let errors : FlatErrors := ⟨[("2", ["a"])], List.pairwise_singleton _ _⟩
    let padded : FlatErrors := ⟨[("02", ["a"])], List.pairwise_singleton _ _⟩
    let items : List (Nat × ErrorTree) :=
      [(0, .messages ["a"]), (18446744073709551615, .messages ["b"])]
    (∃ values, (expand errors).toJson = .array values
        ∧ values[0]? = some .null ∧ values[1]? = some .null
        ∧ values[2]? = some (.array [.string "a"]) ∧ values.length = 3)
      ∧ ofJson? (expand errors).toJson = some (expand errors)
      ∧ expand errors = expand padded
      ∧ ∃ fields, (list items).toJson = .object fields
        ∧ fields.Perm [("0", .array [.string "a"]),
          ("18446744073709551615", .array [.string "b"])] := by
  intro errors padded items
  obtain ⟨hexpanded, hbuilt⟩ := toJson_faithful
  obtain ⟨-, hread, hinjective, harray⟩ := hexpanded errors
  have hlevel : ∀ level : List Entry, isListLevel level = true → slotsOf indexSlot level = [2] →
      ownMessages? indexSlot 2 level = some ["a"] →
        expandLevel level = .list [(2, .messages ["a"])] := by
    intro level hlist hslots hown
    rw [expandLevel_eq, hlist, hslots, if_pos rfl, List.map_singleton, subtree, hown]
  have htree : expand errors = .list [(2, .messages ["a"])] :=
    hlevel _ (by decide +kernel) (by decide +kernel) (by decide +kernel)
  have htree' : expand padded = .list [(2, .messages ["a"])] :=
    hlevel _ (by decide +kernel) (by decide +kernel) (by decide +kernel)
  refine ⟨?_, hread, hinjective padded (by rw [htree, htree']), ?_⟩
  · obtain ⟨values, hvalues, hholds⟩ := harray [] _ (congrArg some htree)
    have hlength : values.length = 3 := by
      obtain ⟨last, hlast, -, hlength⟩ := hholds.length_eq
      rw [List.map_singleton, List.mem_singleton] at hlast
      rw [hlength, hlast]
    refine ⟨values, Option.some.inj hvalues, ?_, ?_, hholds.item _ List.mem_cons_self, hlength⟩
    · exact (hholds.null_iff 0).mpr ⟨by omega, by decide⟩
    · exact (hholds.null_iff 1).mpr ⟨by omega, by decide⟩
  · -- the second index is too large for an array
    have hordered : (list items).Ordered := by
      refine .list (by unfold Ascending.Keys; decide) (by unfold IndicesFit; decide) ?_
      exact List.forall_mem_cons.mpr ⟨.messages _, List.forall_mem_singleton.mpr (.messages _)⟩
    have hwritten := (hbuilt _ hordered).2 [] items rfl
    generalize hvalue : (list items).toJson = value at hwritten
    cases hwritten with
    | array hsmall => exact absurd (hsmall 18446744073709551615 (by decide)) (by decide)
    | @object fields _ _ _ hperm => exact ⟨fields, rfl, hperm⟩

end ResourceQuery.ErrorTree
