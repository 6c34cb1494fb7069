import Mathlib.Data.List.Nodup
import ResourceQuery.Proofs.Ascending
import ResourceQuery.Proofs.ErrorTree.Conservation
import ResourceQuery.Proofs.ErrorTree.Lookup
import ResourceQuery.Proofs.Path.Text

/-!
# Flattening a tree

`flatten` is the way back from a tree to flat errors: one path for each leaf, made up of the names
of fields as they are and of indices in decimal. The rows of a tree of a level are those of its
slots, and different slots write different segments, so the leaves of an expanded tree have
different paths. Main statement: `flatten` has an entry for each of these leaves
(`entries_flatten_expand`).
-/

set_option autoImplicit false

namespace ResourceQuery

namespace FlatErrors

theorem ext {errors errors' : FlatErrors} (h : errors.entries = errors'.entries) :
    errors = errors' := by
  cases errors
  cases errors'
  cases h
  rfl

/-- Paths that are all different keep all their messages. -/
theorem entries_ofList {entries : List (String × List String)}
    (h : (entries.map Prod.fst).Nodup) : (ofList entries).entries.Perm entries := by
  have hsame : ∀ (rest : List (String × List String)) (errors : FlatErrors),
      (rest.foldl (fun errors entry => errors.insert entry.1 entry.2) errors).entries
        = rest.foldl (fun map pair => Ascending.insert pair.1 pair.2 map) errors.entries := by
    intro rest
    induction rest with
    | nil => exact fun _ => rfl
    | cons entry rest ih => exact fun errors => ih (errors.insert entry.1 entry.2)
  rw [ofList, hsame]
  exact Ascending.ofPairs_perm h

end FlatErrors

namespace ErrorTree

/-! ## Rows of a tree -/

/-- The messages of a leaf, and the segments that lead to it. -/
structure Row where
  segments : List String
  messages : List String

/-- A row of a tree as a row of the tree around it. -/
def Row.under (segment : String) (row : Row) : Row := ⟨segment :: row.segments, row.messages⟩

/-- The segments of a row as a dotted path. -/
def Row.path (row : Row) : String := ".".intercalate row.segments

mutual

/-- The rows of all leaves, in the order of the tree. -/
def rows : ErrorTree → List Row
  | .messages texts => [⟨[], texts⟩]
  | .list items => itemRows items
  | .map fields => fieldRows fields

def itemRows : List (Nat × ErrorTree) → List Row
  | [] => []
  | (index, tree) :: rest => tree.rows.map (Row.under (toString index)) ++ itemRows rest

def fieldRows : List (String × ErrorTree) → List Row
  | [] => []
  | (name, tree) :: rest => tree.rows.map (Row.under name) ++ fieldRows rest

end

/-- A tree as flat errors, one path for each leaf. -/
def flatten (tree : ErrorTree) : FlatErrors :=
  FlatErrors.ofList (tree.rows.map fun row => (row.path, row.messages))

theorem itemRows_eq_flatMap (items : List (Nat × ErrorTree)) :
    itemRows items = items.flatMap fun item => item.2.rows.map (Row.under (toString item.1)) := by
  induction items with
  | nil => rfl
  | cons item rest ih => rw [itemRows, ih, List.flatMap_cons]

theorem fieldRows_eq_flatMap (fields : List (String × ErrorTree)) :
    fieldRows fields = fields.flatMap fun field => field.2.rows.map (Row.under field.1) := by
  induction fields with
  | nil => rfl
  | cons field rest ih => rw [fieldRows, ih, List.flatMap_cons]

mutual

/-- The rows of a tree have the messages of its leaves. -/
theorem messages_rows : ∀ tree : ErrorTree, tree.rows.map Row.messages = tree.leaves
  | .messages _ => rfl
  | .list items => messages_itemRows items
  | .map fields => messages_fieldRows fields

theorem messages_itemRows : ∀ items, (itemRows items).map Row.messages = itemLeaves items
  | [] => rfl
  | (index, tree) :: rest => by
      rw [itemRows, itemLeaves, List.map_append, List.map_map, messages_itemRows rest,
        ← messages_rows tree]
      rfl

theorem messages_fieldRows : ∀ fields, (fieldRows fields).map Row.messages = fieldLeaves fields
  | [] => rfl
  | (name, tree) :: rest => by
      rw [fieldRows, fieldLeaves, List.map_append, List.map_map, messages_fieldRows rest,
        ← messages_rows tree]
      rfl

end

/-! ## Slots and their segments -/

/-- The segment that names a slot in plain form. -/
def Slot.segment : Slot → String
  | .index value => toString value
  | .field name => name

def slots (level : List Entry) : List Slot :=
  if isListLevel level then (slotsOf indexSlot level).map .index
  else (slotsOf nameSlot level).map .field

variable {level : List Entry} {slot : Slot} {entry : Entry}

theorem mem_slots : slot ∈ slots level ↔ ∃ entry ∈ level, slotIn level entry = some slot := by
  cases hl : isListLevel level with
  | true =>
      cases slot with
      | index n => simp [slots, hl, mem_slotsOf_iff, indexSlot_eq_some_iff hl]
      | field name => simp [slots, hl, slotIn_list hl]
  | false =>
      cases slot with
      | index n => simp [slots, hl, slotIn_map hl]
      | field name => simp [slots, hl, mem_slotsOf_iff, nameSlot_eq_some_iff hl]

theorem nodup_slots (level : List Entry) : (slots level).Nodup := by
  rw [slots]
  split
  · exact (nodup_slotsOf _ _).map fun _ _ h => Slot.index.inj h
  · exact (nodup_slotsOf _ _).map fun _ _ h => Slot.field.inj h

/-- A level that is not empty has a slot: in a list that of a head that is an index. -/
theorem slots_ne_nil (h : level ≠ []) : slots level ≠ [] := by
  have hslot : ∃ entry ∈ level, ∃ slot, slotIn level entry = some slot := by
    cases hl : isListLevel level with
    | true =>
        have hindices : headIndices level ≠ [] := by
          intro hnil
          simp [isListLevel, hnil] at hl
        obtain ⟨index, hindex⟩ := List.exists_mem_of_ne_nil _ hindices
        obtain ⟨entry, hmem, hentry⟩ := List.mem_filterMap.mp hindex
        exact ⟨entry, hmem, _, (indexSlot_eq_some_iff hl entry).mp hentry⟩
    | false =>
        obtain ⟨entry, hmem⟩ := List.exists_mem_of_ne_nil _ h
        exact ⟨entry, hmem, _, slotIn_map hl entry⟩
  obtain ⟨entry, hmem, slot, hslot⟩ := hslot
  exact List.ne_nil_of_mem (mem_slots.mpr ⟨entry, hmem, hslot⟩)

/-- The plain segment of a slot names that slot, so it is no other slot's. -/
theorem slotIn_of_head (h : slot ∈ slots level) (hhead : entry.path.head = slot.segment) :
    slotIn level entry = some slot := by
  obtain ⟨other, -, hother⟩ := mem_slots.mp h
  cases hl : isListLevel level with
  | true =>
      rw [slotIn_list hl, Option.map_eq_some_iff] at hother
      obtain ⟨index, hindex, rfl⟩ := hother
      have hlt := (Path.index?_eq_some_iff.mp hindex).2.2.2
      rw [slotIn_list hl, indexSlot, hhead, Slot.segment, Path.index?_toString hlt]
      rfl
  | false =>
      rw [slotIn_map hl, Option.some.injEq] at hother
      subst hother
      rw [slotIn_map hl, hhead]
      rfl

theorem segment_injective {slot' : Slot} (h : slot ∈ slots level) (h' : slot' ∈ slots level)
    (hsegment : slot.segment = slot'.segment) : slot = slot' := by
  have hslot : slotIn level ⟨⟨slot.segment, []⟩, []⟩ = some slot := slotIn_of_head h rfl
  have hslot' : slotIn level ⟨⟨slot.segment, []⟩, []⟩ = some slot' := slotIn_of_head h' hsegment
  exact Option.some.inj (hslot.symm.trans hslot')

/-! ## From the levels below to a level -/

theorem mem_entriesBelow {below : Entry} :
    below ∈ entriesBelow (slotIn level) slot level
      ↔ ∃ entry ∈ level, slotIn level entry = some slot ∧ entry.below? = some below := by
  simp only [entriesBelow, List.mem_filterMap, mem_entriesAt, and_assoc]

/-- What holds of a level once it holds of the levels below its slots holds of every level. -/
theorem level_induction {motive : List Entry → Prop}
    (step : ∀ level,
      (∀ slot ∈ slots level, motive (entriesBelow (slotIn level) slot level)) → motive level)
    (level : List Entry) : motive level := by
  induction hw : weight level using Nat.strongRecOn generalizing level with
  | ind n ih =>
      refine step level fun slot hslot => ?_
      obtain ⟨entry, hmem, -⟩ := mem_slots.mp hslot
      have hlighter := weight_entriesBelow (slotIn level) slot level (List.ne_nil_of_mem hmem)
      exact ih _ (hw ▸ hlighter) _ rfl

/-- At a slot messages end, or all its entries go on. -/
theorem subtree_cases (h : slot ∈ slots level) :
    (∃ winner ∈ level, slotIn level winner = some slot ∧ winner.ends = true
        ∧ subtree (slotIn level) slot level = .messages winner.messages)
      ∨ (∀ entry ∈ level, slotIn level entry = some slot → entry.ends = false)
        ∧ entriesBelow (slotIn level) slot level ≠ []
        ∧ subtree (slotIn level) slot level
          = expandLevel (entriesBelow (slotIn level) slot level) := by
  cases hlast : ((entriesAt (slotIn level) slot level).filter Entry.ends).getLast? with
  | some winner =>
      obtain ⟨hat, hends⟩ := List.mem_filter.mp (List.mem_of_getLast? hlast)
      obtain ⟨hmem, hslot⟩ := mem_entriesAt.mp hat
      exact .inl ⟨winner, hmem, hslot, hends, subtree_of_getLast? hlast⟩
  | none =>
      -- nothing ends there, so whatever is there goes on
      have hfree : ∀ entry ∈ level, slotIn level entry = some slot → entry.ends = false :=
        ownMessages?_eq_none_iff.mp (by rw [ownMessages?, hlast, Option.map_none])
      obtain ⟨entry, hmem, hslot⟩ := mem_slots.mp h
      obtain ⟨below, hbelow⟩ : ∃ below, entry.below? = some below := by
        rw [← Option.ne_none_iff_exists', Ne, Entry.below?_eq_none_iff, hfree entry hmem hslot]
        exact Bool.false_ne_true
      have hnext := mem_entriesBelow.mpr ⟨entry, hmem, hslot, hbelow⟩
      exact .inr ⟨hfree, List.ne_nil_of_mem hnext, subtree_of_goes_on hfree⟩

/-- The rows of the tree of a level, slot by slot. -/
theorem rows_expandLevel (level : List Entry) :
    (expandLevel level).rows = (slots level).flatMap fun slot =>
      (subtree (slotIn level) slot level).rows.map (Row.under slot.segment) := by
  rw [expandLevel_eq]
  cases hl : isListLevel level with
  | true =>
      rw [if_pos rfl, slots, hl, if_pos rfl, rows, itemRows_eq_flatMap, List.flatMap_map,
        List.flatMap_map]
      simp only [subtree_congr (indexSlot_eq_some_iff hl), Slot.segment]
  | false =>
      rw [if_neg Bool.false_ne_true, slots, hl, if_neg Bool.false_ne_true, rows,
        fieldRows_eq_flatMap, List.flatMap_map, List.flatMap_map]
      simp only [subtree_congr (nameSlot_eq_some_iff hl), Slot.segment]

theorem mem_rows_expandLevel {row : Row} :
    row ∈ (expandLevel level).rows
      ↔ ∃ slot ∈ slots level, ∃ below ∈ (subtree (slotIn level) slot level).rows,
          below.under slot.segment = row := by
  simp only [rows_expandLevel, List.mem_flatMap, List.mem_map]

/-- Every slot has a row. -/
theorem rows_subtree_ne_nil (h : slot ∈ slots level) :
    (subtree (slotIn level) slot level).rows ≠ [] := by
  -- a level has a slot, and its subtree is a leaf or comes from a level of its own
  have hexpand : ∀ level : List Entry, level ≠ [] → (expandLevel level).rows ≠ [] := by
    refine level_induction fun level ih hne => ?_
    obtain ⟨slot, hslot⟩ := List.exists_mem_of_ne_nil _ (slots_ne_nil hne)
    have hrows : (subtree (slotIn level) slot level).rows ≠ [] := by
      rcases subtree_cases hslot with ⟨winner, -, -, -, heq⟩ | ⟨-, hbelow, heq⟩
      · rw [heq]; exact List.cons_ne_nil _ _
      · rw [heq]; exact ih slot hslot hbelow
    obtain ⟨row, hrow⟩ := List.exists_mem_of_ne_nil _ hrows
    exact List.ne_nil_of_mem (mem_rows_expandLevel.mpr ⟨slot, hslot, row, hrow, rfl⟩)
  rcases subtree_cases h with ⟨winner, -, -, -, heq⟩ | ⟨-, hbelow, heq⟩
  · rw [heq]; exact List.cons_ne_nil _ _
  · rw [heq]; exact hexpand _ hbelow

theorem segments_ne_nil {row : Row} (h : row ∈ (expandLevel level).rows) : row.segments ≠ [] := by
  obtain ⟨slot, -, below, -, rfl⟩ := mem_rows_expandLevel.mp h
  exact List.cons_ne_nil _ _

/-! ## Different leaves have different paths -/

/-- No row has a dot in a segment if no entry of the level has one. -/
theorem dot_notMem_of_mem_rows
    (hlevel : ∀ entry ∈ level, ∀ segment ∈ entry.path.segments, '.' ∉ segment.toList) {row : Row}
    (hrow : row ∈ (expandLevel level).rows) : ∀ segment ∈ row.segments, '.' ∉ segment.toList := by
  induction level using level_induction generalizing row with
  | step level ih =>
      obtain ⟨slot, hslot, below, hbelow, rfl⟩ := mem_rows_expandLevel.mp hrow
      obtain ⟨entry, hmem, hentry⟩ := mem_slots.mp hslot
      rw [Row.under, List.forall_mem_cons]
      constructor
      · -- the first segment is an index in decimal, or a head of the level
        cases hl : isListLevel level with
        | true =>
            rw [slotIn_list hl, Option.map_eq_some_iff] at hentry
            obtain ⟨index, -, rfl⟩ := hentry
            exact Text.notMem_toString (by decide) index
        | false =>
            rw [slotIn_map hl, Option.some.injEq] at hentry
            rw [← hentry]
            exact hlevel entry hmem _ List.mem_cons_self
      · -- the others are those of a row further down
        rcases subtree_cases hslot with ⟨winner, -, -, -, heq⟩ | ⟨-, -, heq⟩
        · rw [heq, rows, List.mem_singleton] at hbelow
          rw [hbelow]
          exact List.forall_mem_nil _
        · rw [heq] at hbelow
          refine ih slot hslot (fun next hnext segment hsegment => ?_) hbelow
          obtain ⟨entry, hmem, -, hgoes⟩ := mem_entriesBelow.mp hnext
          rw [← (Entry.below?_eq_some_iff.mp hgoes).1] at hsegment
          exact hlevel entry hmem segment (List.mem_cons_of_mem _ hsegment)

/-- Different rows have different segments. -/
theorem nodup_segments (level : List Entry) :
    ((expandLevel level).rows.map Row.segments).Nodup := by
  induction level using level_induction with
  | step level ih =>
      have hmap : (expandLevel level).rows.map Row.segments
          = (slots level).flatMap fun slot =>
              ((subtree (slotIn level) slot level).rows.map Row.segments).map
                (slot.segment :: ·) := by
        rw [rows_expandLevel, List.map_flatMap]
        simp only [List.map_map]
        rfl
      rw [hmap, List.nodup_flatMap]
      constructor
      · -- at one slot the rows are told apart by what comes after it
        intro slot hslot
        refine List.Nodup.map (List.cons_injective) ?_
        rcases subtree_cases hslot with ⟨winner, -, -, -, heq⟩ | ⟨-, -, heq⟩
        · rw [heq]; exact List.nodup_singleton _
        · rw [heq]; exact ih slot hslot
      · -- rows of different slots differ in their first segment
        refine (nodup_slots level).imp_of_mem fun {slot slot'} hslot hslot' hne => ?_
        intro segments hmem hmem'
        obtain ⟨rest, -, rfl⟩ := List.mem_map.mp hmem
        obtain ⟨rest', -, hcons⟩ := List.mem_map.mp hmem'
        exact hne (segment_injective hslot hslot' (List.cons.inj hcons).1.symm)

theorem dot_notMem_of_mem_entriesOf {errors : FlatErrors} {entry : Entry}
    (h : entry ∈ entriesOf errors) : ∀ segment ∈ entry.path.segments, '.' ∉ segment.toList := by
  obtain ⟨pair, -, rfl⟩ := List.mem_map.mp h
  exact fun _ => Path.dot_notMem_of_mem_ofText

/-- The segments of a row are read from its path. -/
theorem segments_ofText_path {errors : FlatErrors} {row : Row} (h : row ∈ (expand errors).rows) :
    (Path.ofText row.path).segments = row.segments :=
  Path.segments_ofText_intercalate (segments_ne_nil h)
    (dot_notMem_of_mem_rows (fun _ => dot_notMem_of_mem_entriesOf) h)

/-- A flattened tree has an entry for each leaf. -/
theorem entries_flatten_expand (errors : FlatErrors) :
    (flatten (expand errors)).entries.Perm
      ((expand errors).rows.map fun row => (row.path, row.messages)) := by
  refine FlatErrors.entries_ofList ?_
  have hread : ((expand errors).rows.map fun row => (Path.ofText row.path).segments).Nodup := by
    rw [List.map_congr_left fun _ => segments_ofText_path]
    exact nodup_segments _
  rw [List.map_map]
  exact List.Nodup.of_map (fun path => (Path.ofText path).segments) (by rwa [List.map_map])

end ErrorTree

end ResourceQuery
