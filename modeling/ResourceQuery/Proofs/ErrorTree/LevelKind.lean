import ResourceQuery.Proofs.ErrorTree.Lossless
import ResourceQuery.Proofs.Path.Index

/-!
# Which levels are lists

`LevelAt` says which levels expansion comes to, and by which slots. A level is a list or a map by
its numerals, the heads that are made of digits: one of them has to be an index, and all that are
indices have to be small enough for a list. A map keeps every head and drops none
(`keys_of_map`, `nonIndexKey_mem_iff`). Main statement: the kind of every level (`expand_levels`).
A numeral that is too long for an index counts as no index at all, which is where the kind of a
level differs from the rule that takes numerals of every size (`expand_long_numeral`).
-/

set_option autoImplicit false

namespace ResourceQuery

namespace ErrorTree

open ResourceQuery.Path

/-! ## The levels of an expansion -/

/-- The levels that expanding flat errors comes to, each with the slots that lead there. -/
inductive LevelAt (errors : FlatErrors) : List Slot → List Entry → Prop
  | first : LevelAt errors [] (entriesOf errors)
  /-- The next level has the entries that go on below a slot, if no messages end there. -/
  | next {address : List Slot} {level : List Entry} {slot : Slot} :
      LevelAt errors address level → slot ∈ slots level →
      ownMessages? (slotIn level) slot level = none →
      LevelAt errors (address ++ [slot]) (entriesBelow (slotIn level) slot level)

theorem atSlots?_append (tree : ErrorTree) (front back : List Slot) :
    tree.atSlots? (front ++ back) = (tree.atSlots? front).bind (·.atSlots? back) := by
  induction front generalizing tree with
  | nil => rfl
  | cons slot rest ih =>
      rw [List.cons_append, atSlots?, atSlots?]
      cases tree.childAt? slot with
      | none => rfl
      | some child => exact ih child

/-- The tree of a level stands at the slots that lead to the level. -/
theorem LevelAt.atSlots?_eq {errors : FlatErrors} {address : List Slot} {level : List Entry}
    (h : LevelAt errors address level) :
    (expand errors).atSlots? address = some (expandLevel level) := by
  induction h with
  | first => rfl
  | @next address level slot _ hslot hown ih =>
      obtain ⟨entry, hmem, hentry⟩ := mem_slots.mp hslot
      have hat : entriesAt (slotIn level) slot level ≠ [] :=
        List.ne_nil_of_mem (mem_entriesAt.mpr ⟨hmem, hentry⟩)
      have hsubtree : subtree (slotIn level) slot level
          = expandLevel (entriesBelow (slotIn level) slot level) := by
        rw [subtree, hown]
      -- nothing ends at the slot, so the tree there is that of the next level
      rw [atSlots?_append, ih, Option.bind_some, atSlots?, childAt?_expandLevel, if_neg hat,
        hsubtree]
      rfl

/-! ## The kind of a level -/

/-- A head of the level is a numeral, and all numerals among its heads are small enough for the
positions of a list. -/
def NumeralsFit (level : List Entry) : Prop :=
  (∃ entry ∈ level, IsNumeral entry.path.head)
    ∧ ∀ entry ∈ level, IsNumeral entry.path.head → numeral entry.path.head ≤ maxListIndex

def IsList (tree : ErrorTree) : Prop := ∃ items, tree = .list items

variable {level : List Entry}

theorem isList_expandLevel : (expandLevel level).IsList ↔ isListLevel level = true := by
  rw [expandLevel_eq]
  cases isListLevel level with
  | true => exact iff_of_true ⟨_, rfl⟩ rfl
  | false =>
      refine iff_of_false ?_ Bool.false_ne_true
      rintro ⟨items, hitems⟩
      cases hitems

theorem mem_headIndices_iff {index : Nat} :
    index ∈ headIndices level
      ↔ ∃ entry ∈ level, IsNumeral entry.path.head ∧ numeral entry.path.head < indexBound
        ∧ numeral entry.path.head = index := by
  simp only [headIndices, List.mem_filterMap, index?_eq_some_iff_numeral]

theorem exists_headIndex_iff :
    (headIndices level).isEmpty = false
      ↔ ∃ entry ∈ level, IsNumeral entry.path.head ∧ numeral entry.path.head < indexBound := by
  rw [List.isEmpty_eq_false_iff_exists_mem]
  constructor
  · rintro ⟨index, hindex⟩
    obtain ⟨entry, hmem, hnumeral, hlt, -⟩ := mem_headIndices_iff.mp hindex
    exact ⟨entry, hmem, hnumeral, hlt⟩
  · rintro ⟨entry, hmem, hnumeral, hlt⟩
    exact ⟨_, mem_headIndices_iff.mpr ⟨entry, hmem, hnumeral, hlt, rfl⟩⟩

/-- What is too large for an index does not count as too large for a list. -/
theorem exceedsLimit_eq_false_iff :
    exceedsLimit level = false
      ↔ ∀ entry ∈ level, IsNumeral entry.path.head →
        numeral entry.path.head ≤ maxListIndex ∨ indexBound ≤ numeral entry.path.head := by
  rw [exceedsLimit, List.any_eq_false]
  constructor
  · intro h entry hmem hnumeral
    rcases Nat.lt_or_ge (numeral entry.path.head) indexBound with hlt | hge
    · have hsmall := h _ (mem_headIndices_iff.mpr ⟨entry, hmem, hnumeral, hlt, rfl⟩)
      exact .inl (by simpa using hsmall)
    · exact .inr hge
  · intro h index hindex
    obtain ⟨entry, hmem, hnumeral, hlt, rfl⟩ := mem_headIndices_iff.mp hindex
    have := h entry hmem hnumeral
    simp only [decide_eq_true_eq]
    omega

/-- A level is a list when some head is an index, and every numeral among its heads is small enough
for a list or too large for an index. -/
theorem isListLevel_iff :
    isListLevel level = true
      ↔ (∃ entry ∈ level, IsNumeral entry.path.head ∧ numeral entry.path.head < indexBound)
        ∧ ∀ entry ∈ level, IsNumeral entry.path.head →
          numeral entry.path.head ≤ maxListIndex ∨ indexBound ≤ numeral entry.path.head := by
  rw [isListLevel, Bool.and_eq_true, Bool.not_eq_true', Bool.not_eq_true', exists_headIndex_iff,
    exceedsLimit_eq_false_iff]

/-- Numerals of every size decide in the same way as long as none is too large for an index. -/
theorem numeralsFit_iff :
    NumeralsFit level
      ↔ isListLevel level = true
        ∧ ∀ entry ∈ level, IsNumeral entry.path.head → numeral entry.path.head < indexBound := by
  rw [isListLevel_iff]
  have hbound : maxListIndex < indexBound := by decide
  constructor
  · rintro ⟨⟨entry, hmem, hnumeral⟩, hfit⟩
    have hsmall : ∀ entry ∈ level, IsNumeral entry.path.head →
        numeral entry.path.head < indexBound :=
      fun entry hmem hnumeral => Nat.lt_of_le_of_lt (hfit entry hmem hnumeral) hbound
    exact ⟨⟨⟨entry, hmem, hnumeral, hsmall entry hmem hnumeral⟩,
      fun entry hmem hnumeral => .inl (hfit entry hmem hnumeral)⟩, hsmall⟩
  · rintro ⟨⟨⟨entry, hmem, hnumeral, -⟩, hfit⟩, hsmall⟩
    refine ⟨⟨entry, hmem, hnumeral⟩, fun entry hmem hnumeral => ?_⟩
    have := hfit entry hmem hnumeral
    have := hsmall entry hmem hnumeral
    omega

/-- A level that is no list is a map, and its fields are the heads of its entries. -/
theorem keys_of_map (h : isListLevel level = false) :
    ∃ fields, expandLevel level = .map fields
      ∧ ∀ name, name ∈ fields.map Prod.fst ↔ ∃ entry ∈ level, entry.path.head = name := by
  refine ⟨(slotsOf nameSlot level).map fun name => (name, subtree nameSlot name level), ?_, ?_⟩
  · rw [expandLevel_eq, h, if_neg Bool.false_ne_true]
  · intro name
    rw [Ascending.map_fst_map_key, mem_slotsOf_iff]
    simp only [nameSlot, Option.some.injEq]

/-! ## Heads that are dropped -/

/-- A head is told to be no index when its entry has no slot. -/
theorem nonIndexKey_mem_entryWarnings {κ : Type} [DecidableEq κ] {find : Entry → Option κ}
    {head : String} {earlier rest : List Entry} :
    .nonIndexKey head ∈ entryWarnings find earlier rest
      ↔ ∃ entry ∈ rest, find entry = none ∧ entry.path.head = head := by
  induction rest generalizing earlier with
  | nil => simp [entryWarnings]
  | cons entry rest ih =>
      rw [entryWarnings, List.mem_append, ih, List.exists_mem_cons_iff]
      refine or_congr_left ?_
      cases hfind : find entry with
      | none => simp [eq_comm]
      | some key =>
          -- messages that are replaced are told of by another warning
          cases hown : ownMessages? find key earlier with
          | none => simp [hown]
          | some replaced => simp [hown]

/-- Heads are dropped from lists alone, and those heads that are no index. -/
theorem nonIndexKey_mem_iff {head : String} :
    .nonIndexKey head ∈ entryWarnings (slotIn level) [] level
      ↔ isListLevel level = true ∧ index? head = none
        ∧ ∃ entry ∈ level, entry.path.head = head := by
  rw [nonIndexKey_mem_entryWarnings]
  cases hl : isListLevel level with
  | true =>
      simp only [slotIn_list hl, Option.map_eq_none_iff, indexSlot, true_and]
      constructor
      · rintro ⟨entry, hmem, hnone, rfl⟩
        exact ⟨hnone, entry, hmem, rfl⟩
      · rintro ⟨hnone, entry, hmem, rfl⟩
        exact ⟨entry, hmem, hnone, rfl⟩
  | false => simp [slotIn_map hl]

/-! ## Every level -/

/-- **The kind of a level.** The tree of a level is a list exactly when some head is an index and
every numeral among the heads is small enough for a list or too large for an index. In every other
case it is a map that has all heads of the level as its fields, and no head is dropped: so an index
that is too large for a list costs no other head its messages. The rule that takes numerals of every
size gives the same lists as long as no head is a numeral too large for an index. -/
theorem expand_levels {errors : FlatErrors} {address : List Slot}
    (h : LevelAt errors address level) :
    (expand errors).atSlots? address = some (expandLevel level)
      ∧ ((expandLevel level).IsList
        ↔ (∃ entry ∈ level, IsNumeral entry.path.head ∧ numeral entry.path.head < indexBound)
          ∧ ∀ entry ∈ level, IsNumeral entry.path.head →
            numeral entry.path.head ≤ maxListIndex ∨ indexBound ≤ numeral entry.path.head)
      ∧ (¬ (expandLevel level).IsList →
        (∃ fields, expandLevel level = .map fields
          ∧ ∀ name, name ∈ fields.map Prod.fst ↔ ∃ entry ∈ level, entry.path.head = name)
        ∧ ∀ head, .nonIndexKey head ∉ entryWarnings (slotIn level) [] level)
      ∧ (NumeralsFit level
        ↔ (expandLevel level).IsList
          ∧ ∀ entry ∈ level, IsNumeral entry.path.head →
            numeral entry.path.head < indexBound) := by
  refine ⟨h.atSlots?_eq, isList_expandLevel.trans isListLevel_iff, ?_, ?_⟩
  · intro hmap
    rw [isList_expandLevel, Bool.not_eq_true] at hmap
    refine ⟨keys_of_map hmap, fun head hdropped => ?_⟩
    rw [nonIndexKey_mem_iff, hmap] at hdropped
    exact absurd hdropped.1 Bool.false_ne_true
  · rw [isList_expandLevel]
    exact numeralsFit_iff

/-- Below `tags`, an index above the limit keeps the level a map, with the index and the field
beside it. -/
theorem expand_levels_above_limit :
    let errors : FlatErrors := ⟨[("tags.0", ["a"]), ("tags.5000000.x", ["b"]), ("tags.y", ["c"])],
      by
        unfold Ascending.Keys
        decide⟩
    let level : List Entry := [⟨⟨"0", []⟩, ["a"]⟩, ⟨⟨"5000000", ["x"]⟩, ["b"]⟩, ⟨⟨"y", []⟩, ["c"]⟩]
    LevelAt errors [.field "tags"] level
      ∧ (expand errors).atSlots? [.field "tags"] = some (expandLevel level)
      ∧ ¬ (expandLevel level).IsList
      ∧ ∀ head, .nonIndexKey head ∉ entryWarnings (slotIn level) [] level := by
  intro errors level
  have hlevel : LevelAt errors ([] ++ [.field "tags"])
      (entriesBelow (slotIn (entriesOf errors)) (.field "tags") (entriesOf errors)) :=
    .next .first (by decide +kernel) (by decide +kernel)
  have hbelow : entriesBelow (slotIn (entriesOf errors)) (.field "tags") (entriesOf errors)
      = level := by decide +kernel
  rw [hbelow, List.nil_append] at hlevel
  have hmap : ¬ (expandLevel level).IsList := by
    rw [isList_expandLevel]
    decide +kernel
  obtain ⟨hat, -, hkept, -⟩ := expand_levels hlevel
  exact ⟨hlevel, hat, hmap, (hkept hmap).2⟩

/-- A numeral that is too large for an index is dropped from a list as if it were a name, though it
is larger than every position of a list. -/
theorem expand_long_numeral :
    let errors : FlatErrors := ⟨[("0", ["a"]), ("18446744073709551616", ["b"])], by
      unfold Ascending.Keys
      decide⟩
    LevelAt errors [] (entriesOf errors)
      ∧ (expandLevel (entriesOf errors)).IsList
      ∧ ¬ NumeralsFit (entriesOf errors)
      ∧ .nonIndexKey "18446744073709551616" ∈ warnings errors
      ∧ (expand errors).at? "18446744073709551616" = none := by
  intro errors
  have hlist : (expandLevel (entriesOf errors)).IsList := by
    rw [isList_expandLevel]
    decide +kernel
  have hindex : index? "18446744073709551616" = none := by decide +kernel
  refine ⟨.first, hlist, ?_, ?_, ?_⟩
  · -- all digits, and far above the limit
    rintro ⟨-, hfit⟩
    have hdigits : "18446744073709551616".toList.all isDigit = true := by decide
    have hnumeral : IsNumeral "18446744073709551616" :=
      ⟨by decide, List.all_eq_true.mp hdigits⟩
    have hlong := hfit ⟨⟨"18446744073709551616", []⟩, ["b"]⟩ (by decide +kernel) hnumeral
    exact absurd hlong (by decide)
  · -- no index, so it is told as a name would be
    rw [warnings, levelWarnings_eq_slots]
    refine List.mem_append_right _ (List.mem_append_left _ (nonIndexKey_mem_iff.mpr ?_))
    exact ⟨isList_expandLevel.mp hlist, hindex, ⟨⟨"18446744073709551616", []⟩, ["b"]⟩,
      by decide +kernel, rfl⟩
  · -- no index, so it leads nowhere
    obtain ⟨items, hitems⟩ := hlist
    have hpath : (ofText "18446744073709551616").segments = ["18446744073709551616"] := by
      decide +kernel
    rw [at?, expand, hitems, hpath, follow?, child?, hindex]
    rfl

end ErrorTree

end ResourceQuery
