import ResourceQuery.ErrorTree.Expansion

/-!
# Slots of a level

The entries of a level meet in its slots: in the indices if the level is a list, in the names if it
is a map. `Slot` covers both, so that what a level does to its entries is said once for lists and
maps. Main statement: the tree of a level has at a slot what the entries at that slot give, and
nothing where there are none (`childAt?_expandLevel`).
-/

set_option autoImplicit false

namespace ResourceQuery

/-- A value for each key: the value at a key is the one given for it. -/
theorem Ascending.get?_map_key {κ β : Type} [DecidableEq κ] (key : κ) (f : κ → β) (keys : List κ) :
    get? key (keys.map fun k => (k, f k)) = if key ∈ keys then some (f key) else none := by
  induction keys with
  | nil => rfl
  | cons k rest ih =>
      rw [List.map_cons, get?, ih]
      by_cases hk : k = key
      · simp [hk]
      · simp [hk, Ne.symm hk]

/-- A value for each key: the keys are as given. -/
theorem Ascending.map_fst_map_key {κ β : Type} (f : κ → β) (keys : List κ) :
    (keys.map fun k => (k, f k)).map Prod.fst = keys := by
  rw [List.map_map]
  exact List.map_id keys

namespace ErrorTree

/-- A place directly below a tree: an item of a list or a field of a map. -/
inductive Slot
  | index (value : Nat)
  | field (name : String)
  deriving DecidableEq, Repr

/-! ## Slots of a tree -/

/-- The slot that a segment names in a tree. -/
def slot? (tree : ErrorTree) (segment : String) : Option Slot :=
  match tree with
  | .messages _ => none
  | .list _ => (Path.index? segment).map .index
  | .map _ => some (.field segment)

def childAt? : ErrorTree → Slot → Option ErrorTree
  | .list items, .index index => Ascending.get? index items
  | .map fields, .field name => Ascending.get? name fields
  | _, _ => none

theorem child?_eq (tree : ErrorTree) (segment : String) :
    tree.child? segment = (tree.slot? segment).bind tree.childAt? := by
  cases tree with
  | messages texts => rfl
  | list items => cases h : Path.index? segment <;> simp [child?, slot?, childAt?, h]
  | map fields => rfl

/-- The tree at a row of slots. -/
def atSlots? (tree : ErrorTree) : List Slot → Option ErrorTree
  | [] => some tree
  | slot :: rest => (tree.childAt? slot).bind (·.atSlots? rest)

/-- The slots that a row of segments goes through, if it leads somewhere. -/
def address? (tree : ErrorTree) : List String → Option (List Slot)
  | [] => some []
  | segment :: rest =>
    (tree.slot? segment).bind fun slot =>
      (tree.childAt? slot).bind fun child => (child.address? rest).map (slot :: ·)

/-- Segments lead to the tree at the slots that they go through. -/
theorem follow?_eq (tree : ErrorTree) (segments : List String) :
    tree.follow? segments = (tree.address? segments).bind tree.atSlots? := by
  induction segments generalizing tree with
  | nil => rfl
  | cons segment rest ih =>
      rw [follow?, address?, child?_eq]
      cases tree.slot? segment with
      | none => rfl
      | some slot =>
          rw [Option.bind_some, Option.bind_some]
          cases hchild : tree.childAt? slot with
          | none => rfl
          | some child =>
              rw [Option.bind_some, Option.bind_some, ih]
              cases child.address? rest with
              | none => rfl
              | some slots => simp [atSlots?, hchild]

/-! ## Slots of a level -/

/-- The slot of an entry among the entries of its level. -/
def slotIn (level : List Entry) (entry : Entry) : Option Slot :=
  if isListLevel level then (indexSlot entry).map .index else (nameSlot entry).map .field

theorem slotIn_list {level : List Entry} (h : isListLevel level = true) (entry : Entry) :
    slotIn level entry = (indexSlot entry).map .index := by
  simp only [slotIn, h, if_true]

theorem slotIn_map {level : List Entry} (h : isListLevel level = false) (entry : Entry) :
    slotIn level entry = some (.field entry.path.head) := by
  simp [slotIn, nameSlot, h]

theorem indexSlot_eq_some_iff {level : List Entry} (h : isListLevel level = true) {index : Nat}
    (entry : Entry) : indexSlot entry = some index ↔ slotIn level entry = some (.index index) := by
  simp [slotIn_list h]

theorem nameSlot_eq_some_iff {level : List Entry} (h : isListLevel level = false) {name : String}
    (entry : Entry) : nameSlot entry = some name ↔ slotIn level entry = some (.field name) := by
  simp [slotIn_map h, nameSlot]

theorem Entry.below?_eq_none_iff {entry : Entry} : entry.below? = none ↔ entry.ends = true := by
  obtain ⟨⟨head, tail⟩, messages⟩ := entry
  cases tail with
  | nil => simp [below?, Path.below?, ends]
  | cons segment rest => simp [below?, Path.below?, ends]

/-- An entry goes on with its messages and with the segments after the first. -/
theorem Entry.below?_eq_some_iff {entry below : Entry} :
    entry.below? = some below
      ↔ entry.path.tail = below.path.segments ∧ entry.messages = below.messages := by
  obtain ⟨⟨head, tail⟩, messages⟩ := entry
  obtain ⟨⟨head', tail'⟩, messages'⟩ := below
  cases tail with
  | nil => simp [below?, Path.below?, Path.segments]
  | cons segment rest => simp [below?, Path.below?, Path.segments, and_assoc]

section Subtree

variable {κ ι : Type} [DecidableEq κ] [DecidableEq ι]
variable {slot : Entry → Option κ} {slot' : Entry → Option ι} {key : κ} {key' : ι}

/-- What the entries at a slot give: the messages that end there, or else the tree of the entries
that go on. -/
def subtree (slot : Entry → Option κ) (key : κ) (level : List Entry) : ErrorTree :=
  match ownMessages? slot key level with
  | some texts => .messages texts
  | none => expandLevel (entriesBelow slot key level)

theorem mem_entriesAt {entry : Entry} {level : List Entry} :
    entry ∈ entriesAt slot key level ↔ entry ∈ level ∧ slot entry = some key := by
  simp [entriesAt]

/-- The entries that go on below a slot, by the entries of the level. -/
theorem entriesBelow_eq_filterMap {level : List Entry} :
    entriesBelow slot key level
      = level.filterMap fun entry => if slot entry = some key then entry.below? else none := by
  rw [entriesBelow, entriesAt, List.filterMap_filter]
  simp only [decide_eq_true_eq]

theorem entriesBelow_append (front back : List Entry) :
    entriesBelow slot key (front ++ back)
      = entriesBelow slot key front ++ entriesBelow slot key back := by
  simp only [entriesBelow_eq_filterMap, List.filterMap_append]

theorem entriesBelow_cons_of_goes_on {entry below : Entry} {rest : List Entry}
    (hslot : slot entry = some key) (hbelow : entry.below? = some below) :
    entriesBelow slot key (entry :: rest) = below :: entriesBelow slot key rest := by
  simp only [entriesBelow_eq_filterMap, List.filterMap_cons, hslot, if_true, hbelow]

theorem entriesBelow_cons_of_not {entry : Entry} {rest : List Entry}
    (h : slot entry = some key → entry.ends = true) :
    entriesBelow slot key (entry :: rest) = entriesBelow slot key rest := by
  have hnone : (if slot entry = some key then entry.below? else none) = none := by
    by_cases hslot : slot entry = some key
    · rw [if_pos hslot, Entry.below?_eq_none_iff.mpr (h hslot)]
    · rw [if_neg hslot]
  simp only [entriesBelow_eq_filterMap, List.filterMap_cons, hnone]

theorem mem_slotsOf_iff [LT κ] [DecidableLT κ] {level : List Entry} :
    key ∈ slotsOf slot level ↔ ∃ entry ∈ level, slot entry = some key := by
  rw [slotsOf, Ascending.mem_setOf, List.mem_filterMap]

theorem mem_slotsOf [LT κ] [DecidableLT κ] {level : List Entry} :
    key ∈ slotsOf slot level ↔ entriesAt slot key level ≠ [] := by
  rw [mem_slotsOf_iff]
  constructor
  · rintro ⟨entry, hmem, hslot⟩
    exact List.ne_nil_of_mem (mem_entriesAt.mpr ⟨hmem, hslot⟩)
  · intro h
    obtain ⟨entry, hmem⟩ := List.exists_mem_of_ne_nil _ h
    exact ⟨entry, mem_entriesAt.mp hmem⟩

/-- Two ways to find slots that agree on one slot find the same entries there. -/
theorem entriesAt_congr (h : ∀ entry, slot entry = some key ↔ slot' entry = some key')
    (level : List Entry) : entriesAt slot key level = entriesAt slot' key' level := by
  simp only [entriesAt, h]

theorem subtree_congr (h : ∀ entry, slot entry = some key ↔ slot' entry = some key')
    (level : List Entry) : subtree slot key level = subtree slot' key' level := by
  simp only [subtree, ownMessages?, entriesBelow, entriesAt_congr h]

end Subtree

/-- The tree of a level, slot by slot. -/
theorem expandLevel_eq (level : List Entry) :
    expandLevel level
      = if isListLevel level then
          .list ((slotsOf indexSlot level).map fun index => (index, subtree indexSlot index level))
        else
          .map ((slotsOf nameSlot level).map fun name => (name, subtree nameSlot name level)) := by
  rw [expandLevel]
  simp only [List.map_attach_eq_pmap, List.pmap_eq_map]
  rfl

/-- A segment names the same slot in a level and in its tree. -/
theorem slot?_expandLevel (level : List Entry) (entry : Entry) :
    (expandLevel level).slot? entry.path.head = slotIn level entry := by
  rw [expandLevel_eq]
  cases h : isListLevel level with
  | true => simp [slot?, slotIn, indexSlot, h]
  | false => simp [slot?, slotIn, nameSlot, h]

/-- What the tree of a level has at a slot. -/
theorem childAt?_expandLevel (level : List Entry) (slot : Slot) :
    (expandLevel level).childAt? slot
      = if entriesAt (slotIn level) slot level = [] then none
        else some (subtree (slotIn level) slot level) := by
  -- a slot of the other kind has no entries
  have hnone : (∀ entry, slotIn level entry ≠ some slot) →
      entriesAt (slotIn level) slot level = [] :=
    fun h => List.filter_eq_nil_iff.mpr fun entry _ => by simp [h entry]
  rw [expandLevel_eq]
  cases hl : isListLevel level with
  | true =>
      cases slot with
      | index n =>
          rw [if_pos rfl, childAt?, Ascending.get?_map_key,
            ← entriesAt_congr (indexSlot_eq_some_iff hl),
            ← subtree_congr (indexSlot_eq_some_iff hl)]
          simp [mem_slotsOf]
      | field name =>
          rw [hnone fun entry => by simp [slotIn_list hl]]
          rfl
  | false =>
      cases slot with
      | index n =>
          rw [hnone fun entry => by simp [slotIn_map hl]]
          rfl
      | field name =>
          rw [if_neg Bool.false_ne_true, childAt?, Ascending.get?_map_key,
            ← entriesAt_congr (nameSlot_eq_some_iff hl),
            ← subtree_congr (nameSlot_eq_some_iff hl)]
          simp [mem_slotsOf]

end ErrorTree

end ResourceQuery
