import ResourceQuery.Proofs.ErrorTree.Fate
import ResourceQuery.Proofs.ErrorTree.Lossless

/-!
# Expanded trees are in normal form

Take the rows of an expanded tree as the entries of a new level, in any order. Their heads name the
same slots as before, so the level is of the same kind, and at each slot stand the rows of the
subtree there. By induction over the levels the new level gives the same tree
(`expandLevel_of_rows`). Nothing is lost on the way, since there are as many entries as leaves.
The other way round, a level that loses nothing and writes its indices plainly has just the rows of
its tree as entries (`rows_perm`), and no other level has. Main statement: `expand_normal_form`.
-/

set_option autoImplicit false

namespace ResourceQuery.ErrorTree

/-- If of distinct keys only one contributes to a row, the row is its contribution. -/
theorem flatMap_eq_of_mem {ι α : Type} {keys : List ι} {key : ι} {f : ι → List α}
    (hnodup : keys.Nodup) (hkey : key ∈ keys) (hother : ∀ k ∈ keys, k ≠ key → f k = []) :
    keys.flatMap f = f key := by
  obtain ⟨before, after, rfl⟩ := List.append_of_mem hkey
  obtain ⟨-, hafter, hbefore⟩ := List.nodup_append.mp hnodup
  have hnil : ∀ l : List ι, (∀ k ∈ l, k ∈ before ++ key :: after ∧ k ≠ key) → l.flatMap f = [] :=
    fun l hl => List.flatMap_eq_nil_iff.mpr fun k hk => hother k (hl k hk).1 (hl k hk).2
  have hfront := hnil before fun k hk =>
    ⟨List.mem_append_left _ hk, hbefore k hk key List.mem_cons_self⟩
  have hback := hnil after fun k hk =>
    ⟨List.mem_append_right _ (List.mem_cons_of_mem _ hk),
      fun heq => (List.nodup_cons.mp hafter).1 (heq ▸ hk)⟩
  rw [List.flatMap_append, List.flatMap_cons, hfront, hback, List.nil_append, List.append_nil]

/-! ## Entries as rows -/

/-- An entry as a row. -/
def Entry.row (entry : Entry) : Row := ⟨entry.path.segments, entry.messages⟩

def Row.rest (row : Row) : Row := ⟨row.segments.tail, row.messages⟩

theorem Row.rest_under (segment : String) (row : Row) : (row.under segment).rest = row := rfl

/-- Entries that all go on are told by what is left of them on the next level. -/
theorem map_row_filterMap_below {entries : List Entry}
    (hfree : ∀ entry ∈ entries, entry.ends = false) :
    (entries.filterMap Entry.below?).map Entry.row = entries.map fun entry => entry.row.rest := by
  induction entries with
  | nil => rfl
  | cons entry rest ih =>
      have hrest := ih fun entry' hmem => hfree entry' (List.mem_cons_of_mem _ hmem)
      cases hbelow : entry.below? with
      | none =>
          have hends := Entry.below?_eq_none_iff.mp hbelow
          exact absurd hends (Bool.eq_false_iff.mp (hfree entry List.mem_cons_self))
      | some below =>
          obtain ⟨hsegments, hmessages⟩ := Entry.below?_eq_some_iff.mp hbelow
          have hrow : below.row = entry.row.rest := by
            rw [Entry.row, ← hsegments, ← hmessages]
            rfl
          rw [List.filterMap_cons_some hbelow, List.map_cons, List.map_cons, hrest, hrow]

/-! ## The rows of a tree as a new level -/

variable {level level' : List Entry} {slot : Slot}

theorem mem_headIndices {index : Nat} :
    index ∈ headIndices level ↔ ∃ entry ∈ level, indexSlot entry = some index := by
  simp only [headIndices, List.mem_filterMap, indexSlot]

/-- The kind of a level depends on the indices among its heads only. -/
theorem isListLevel_congr (h : ∀ index, index ∈ headIndices level' ↔ index ∈ headIndices level) :
    isListLevel level' = isListLevel level := by
  have hlimit : exceedsLimit level' = exceedsLimit level := by
    rw [Bool.eq_iff_iff, exceedsLimit, exceedsLimit, List.any_eq_true, List.any_eq_true]
    simp only [h]
  have hempty : (headIndices level').isEmpty = (headIndices level).isEmpty := by
    rw [Bool.eq_iff_iff, List.isEmpty_iff, List.isEmpty_iff, List.eq_nil_iff_forall_not_mem,
      List.eq_nil_iff_forall_not_mem]
    simp only [h]
  rw [isListLevel, isListLevel, hlimit, hempty]

theorem slotsOf_congr {κ : Type} [LT κ] [DecidableLT κ] [DecidableEq κ] [LE κ]
    [Std.IsLinearOrder κ] [Std.LawfulOrderLT κ] {find : Entry → Option κ}
    (h : ∀ key, (∃ entry ∈ level', find entry = some key)
      ↔ ∃ entry ∈ level, find entry = some key) :
    slotsOf find level' = slotsOf find level := by
  refine Ascending.eq_of_mem_iff (Ascending.setOf_ascending _) (Ascending.setOf_ascending _)
    fun key => ?_
  exact mem_slotsOf_iff.trans ((h key).trans mem_slotsOf_iff.symm)

/-- Two levels of one kind, with the same slots and the same subtrees, have the same tree. -/
theorem expandLevel_congr (hkind : isListLevel level' = isListLevel level)
    (hslots : ∀ slot, (∃ entry ∈ level', slotIn level entry = some slot) ↔ slot ∈ slots level)
    (hsubtree : ∀ slot ∈ slots level,
      subtree (slotIn level) slot level' = subtree (slotIn level) slot level) :
    expandLevel level' = expandLevel level := by
  rw [expandLevel_eq level', expandLevel_eq level, hkind]
  cases hl : isListLevel level with
  | true =>
      have hsame : slotsOf indexSlot level' = slotsOf indexSlot level :=
        slotsOf_congr fun index => by
          simp only [indexSlot_eq_some_iff hl, hslots, mem_slots]
      rw [if_pos rfl, if_pos rfl, hsame, ErrorTree.list.injEq]
      refine List.map_congr_left fun index hindex => ?_
      rw [subtree_congr (indexSlot_eq_some_iff hl), subtree_congr (indexSlot_eq_some_iff hl),
        hsubtree]
      simpa [mem_slots, mem_slotsOf_iff, indexSlot_eq_some_iff hl] using hindex
  | false =>
      have hsame : slotsOf nameSlot level' = slotsOf nameSlot level :=
        slotsOf_congr fun name => by
          simp only [nameSlot_eq_some_iff hl, hslots, mem_slots]
      rw [if_neg Bool.false_ne_true, if_neg Bool.false_ne_true, hsame, ErrorTree.map.injEq]
      refine List.map_congr_left fun name hname => ?_
      rw [subtree_congr (nameSlot_eq_some_iff hl), subtree_congr (nameSlot_eq_some_iff hl),
        hsubtree]
      simpa [mem_slots, mem_slotsOf_iff, nameSlot_eq_some_iff hl] using hname

section Rows

variable (hrows : (level'.map Entry.row).Perm (expandLevel level).rows)
include hrows

/-- Each of the new entries has the segment of a slot in front, and what follows is a row of the
subtree there. -/
theorem exists_slot_of_mem {entry : Entry} (h : entry ∈ level') :
    ∃ slot ∈ slots level, entry.path.head = slot.segment
      ∧ entry.row.rest ∈ (subtree (slotIn level) slot level).rows := by
  obtain ⟨slot, hslot, below, hbelow, hunder⟩ :=
    mem_rows_expandLevel.mp (hrows.mem_iff.mp (List.mem_map_of_mem h))
  obtain ⟨hsegments, -⟩ := Row.mk.inj hunder
  refine ⟨slot, hslot, (List.cons.inj hsegments).1.symm, ?_⟩
  rw [← hunder, Row.rest_under]
  exact hbelow

/-- The new entries have the slots of the level. -/
theorem exists_slotIn_iff :
    (∃ entry ∈ level', slotIn level entry = some slot) ↔ slot ∈ slots level := by
  constructor
  · -- a new entry starts with the segment of a slot, which names that slot again
    rintro ⟨entry, hmem, hslot⟩
    obtain ⟨slot', hslot', hhead, -⟩ := exists_slot_of_mem hrows hmem
    rw [slotIn_of_head hslot' hhead, Option.some.injEq] at hslot
    exact hslot ▸ hslot'
  · -- every slot has a row, and that row is a new entry
    intro hslot
    obtain ⟨below, hbelow⟩ := List.exists_mem_of_ne_nil _ (rows_subtree_ne_nil hslot)
    have hrow := hrows.mem_iff.mpr (mem_rows_expandLevel.mpr ⟨slot, hslot, below, hbelow, rfl⟩)
    obtain ⟨entry, hmem, hunder⟩ := List.mem_map.mp hrow
    obtain ⟨hsegments, -⟩ := Row.mk.inj hunder
    exact ⟨entry, hmem, slotIn_of_head hslot (List.cons.inj hsegments).1⟩

/-- The new level is of the same kind: a list has the same indices, and a map the same heads. -/
theorem isListLevel_of_rows : isListLevel level' = isListLevel level := by
  refine isListLevel_congr fun index => ?_
  rw [mem_headIndices, mem_headIndices]
  cases hl : isListLevel level with
  | true =>
      simp only [indexSlot_eq_some_iff hl, exists_slotIn_iff hrows, mem_slots]
  | false =>
      have hhead : ∀ name, (∃ entry ∈ level', entry.path.head = name)
          ↔ ∃ entry ∈ level, entry.path.head = name := by
        intro name
        have hslots := (exists_slotIn_iff hrows).trans (@mem_slots level (.field name))
        simpa [slotIn_map hl] using hslots
      constructor
      · rintro ⟨entry, hmem, hindex⟩
        obtain ⟨other, hother, heq⟩ := (hhead _).mp ⟨entry, hmem, rfl⟩
        exact ⟨other, hother, by rwa [indexSlot, heq]⟩
      · rintro ⟨entry, hmem, hindex⟩
        obtain ⟨other, hother, heq⟩ := (hhead _).mpr ⟨entry, hmem, rfl⟩
        exact ⟨other, hother, by rwa [indexSlot, heq]⟩

/-- The new entries at a slot are the rows of the subtree there. -/
theorem entriesAt_perm (hslot : slot ∈ slots level) :
    ((entriesAt (slotIn level) slot level').map Entry.row).Perm
      ((subtree (slotIn level) slot level).rows.map (Row.under slot.segment)) := by
  -- pick out of all rows those that have the segment of the slot in front
  let here : Row → Bool := fun row => row.segments.head? = some slot.segment
  have hnew : (level'.map Entry.row).filter here
      = (entriesAt (slotIn level) slot level').map Entry.row := by
    rw [List.filter_map, entriesAt]
    refine congrArg _ (List.filter_congr fun entry hmem => ?_)
    obtain ⟨slot', hslot', hhead, -⟩ := exists_slot_of_mem hrows hmem
    rw [slotIn_of_head hslot' hhead]
    have hiff : some entry.path.head = some slot.segment ↔ some slot' = some slot := by
      rw [Option.some.injEq, Option.some.injEq, hhead]
      exact ⟨segment_injective hslot' hslot, congrArg _⟩
    exact decide_eq_decide.mpr hiff
  have hold : (expandLevel level).rows.filter here
      = (subtree (slotIn level) slot level).rows.map (Row.under slot.segment) := by
    rw [rows_expandLevel, List.filter_flatMap,
      flatMap_eq_of_mem (nodup_slots level) hslot fun other hother hne => ?_]
    · refine List.filter_eq_self.mpr fun row hrow => ?_
      obtain ⟨below, -, rfl⟩ := List.mem_map.mp hrow
      exact decide_eq_true rfl
    · refine List.filter_eq_nil_iff.mpr fun row hrow => ?_
      obtain ⟨below, -, rfl⟩ := List.mem_map.mp hrow
      intro hhere
      exact hne (segment_injective hother hslot (Option.some.inj (of_decide_eq_true hhere)))
  rw [← hnew, ← hold]
  exact hrows.filter here

/-- Where the new entries at a slot go on, what is left of them are the rows of the subtree. -/
theorem entriesBelow_perm (hslot : slot ∈ slots level)
    (hfree : ∀ entry ∈ level', slotIn level entry = some slot → entry.ends = false) :
    ((entriesBelow (slotIn level) slot level').map Entry.row).Perm
      (subtree (slotIn level) slot level).rows := by
  have hbelow := map_row_filterMap_below fun entry hentry =>
    hfree entry (mem_entriesAt.mp hentry).1 (mem_entriesAt.mp hentry).2
  have hrest := (entriesAt_perm hrows hslot).map Row.rest
  rw [List.map_map, List.map_map] at hrest
  rw [entriesBelow, hbelow]
  exact hrest.trans (List.Perm.of_eq (List.map_id _))

end Rows

/-- **Normal form.** The rows of the tree of a level, as the entries of a new level, give the same
tree. -/
theorem expandLevel_of_rows (hrows : (level'.map Entry.row).Perm (expandLevel level).rows) :
    expandLevel level' = expandLevel level := by
  induction level using level_induction generalizing level' with
  | step level ih =>
      refine expandLevel_congr (isListLevel_of_rows hrows) (fun _ => exists_slotIn_iff hrows)
        fun slot hslot => ?_
      rcases subtree_cases hslot with ⟨winner, -, -, -, heq⟩ | ⟨-, -, heq⟩
      · -- one row, and it ends here
        have hperm := entriesAt_perm hrows hslot
        rw [heq, rows, List.map_singleton] at hperm
        obtain ⟨entry, hentry, hrow⟩ := List.map_eq_singleton_iff.mp hperm.eq_singleton
        obtain ⟨hsegments, hmessages⟩ := Row.mk.inj hrow
        have hends : entry.ends = true := by
          rw [Entry.ends, (List.cons.inj hsegments).2]
          rfl
        have hlast : ((entriesAt (slotIn level) slot level').filter Entry.ends).getLast?
            = some entry := by
          rw [hentry, List.filter_cons_of_pos hends]
          rfl
        rw [subtree_of_getLast? hlast, heq, hmessages]
      · -- all rows go on, and below the slot they are the rows of the subtree
        have hfree : ∀ entry ∈ level', slotIn level entry = some slot → entry.ends = false := by
          intro entry hmem hentry
          obtain ⟨slot', hslot', hhead, hrest⟩ := exists_slot_of_mem hrows hmem
          obtain rfl : slot' = slot :=
            Option.some.inj ((slotIn_of_head hslot' hhead).symm.trans hentry)
          rw [heq] at hrest
          exact List.isEmpty_eq_false_iff.mpr (segments_ne_nil hrest)
        rw [subtree_of_goes_on hfree, heq]
        exact ih slot hslot (heq ▸ entriesBelow_perm hrows hslot hfree)

/-! ## Levels that are the rows of their trees -/

/-- The head of the entry is used as an index, and a needless zero is in front of it. -/
def Place.HasLeadingZero (place : Place) : Prop :=
  (∃ index, place.slot? = some (.index index))
    ∧ ∃ digit more, place.entry.path.head.toList = '0' :: digit :: more

/-- No entry of the level meets a needless zero on its way down. -/
def PlainIndices (level : List Entry) : Prop :=
  ∀ place : Place, place.level = level → ∀ reached, place.Reaches reached →
    ¬ reached.HasLeadingZero

theorem PlainIndices.head_eq (h : PlainIndices level) {entry : Entry} (hmem : entry ∈ level)
    (hslot : slotIn level entry = some slot) : entry.path.head = slot.segment := by
  obtain ⟨before, after, hlevel⟩ := List.append_of_mem hmem
  have hplain := h ⟨before, entry, after⟩ hlevel.symm _ Relation.ReflTransGen.refl
  have hslot' : Place.slot? ⟨before, entry, after⟩ = some slot := by
    rw [Place.slot?, Place.level, ← hlevel]
    exact hslot
  cases hl : isListLevel level with
  | true =>
      -- an index without a needless zero is written in one way only
      rw [slotIn_list hl, Option.map_eq_some_iff] at hslot
      obtain ⟨index, hindex, rfl⟩ := hslot
      exact Path.eq_toString_of_index? hindex fun digit more hhead =>
        hplain ⟨⟨index, hslot'⟩, digit, more, hhead⟩
  | false =>
      rw [slotIn_map hl, Option.some.injEq] at hslot
      exact hslot ▸ rfl

theorem PlainIndices.below (h : PlainIndices level)
    (hfree : ∀ entry ∈ level, slotIn level entry = some slot → entry.ends = false) :
    PlainIndices (entriesBelow (slotIn level) slot level) := by
  intro below hbelow reached hreach
  obtain ⟨place, hlevel, -, hnext⟩ := Place.exists_place_above hbelow hfree
  exact h place hlevel reached (Relation.ReflTransGen.head hnext hreach)

/-- The entries of a level, slot by slot, if all have a slot. -/
theorem flatMap_entriesAt_perm {keys : List Slot} (hnodup : keys.Nodup) {entries : List Entry}
    (hkeys : ∀ entry ∈ entries, ∃ key ∈ keys, slotIn level entry = some key) :
    (keys.flatMap fun key => entriesAt (slotIn level) key entries).Perm entries := by
  induction entries with
  | nil => exact List.Perm.of_eq (List.flatMap_eq_nil_iff.mpr fun _ _ => rfl)
  | cons entry rest ih =>
      obtain ⟨key, hkey, hentry⟩ := hkeys entry List.mem_cons_self
      -- the first entry is one of the entries at its own slot, and of no other
      have hsplit : ∀ k, entriesAt (slotIn level) k (entry :: rest)
          = (if k = key then [entry] else []) ++ entriesAt (slotIn level) k rest := by
        intro k
        by_cases hk : k = key
        · subst hk
          simp [entriesAt, hentry]
        · simp [entriesAt, hentry, hk, Ne.symm hk]
      have hone : (keys.flatMap fun k => if k = key then [entry] else []) = [entry] := by
        rw [flatMap_eq_of_mem hnodup hkey fun k _ hne => if_neg hne, if_pos rfl]
      have hperm := List.flatMap_append_perm keys (fun k => if k = key then [entry] else [])
        fun k => entriesAt (slotIn level) k rest
      rw [hone] at hperm
      simp only [hsplit]
      exact hperm.symm.trans
        ((ih fun other hmem => hkeys other (List.mem_cons_of_mem _ hmem)).cons entry)

/-- A lossless level with plain indices has just the rows of its tree as entries. -/
theorem rows_perm (hlossless : Lossless level) (hplain : PlainIndices level) :
    (expandLevel level).rows.Perm (level.map Entry.row) := by
  induction level using level_induction with
  | step level ih =>
      obtain ⟨hentries, hslots⟩ := lossless_iff.mp hlossless
      -- slot by slot
      have hslot : ∀ slot ∈ slots level,
          ((subtree (slotIn level) slot level).rows.map (Row.under slot.segment)).Perm
            ((entriesAt (slotIn level) slot level).map Entry.row) := by
        intro slot hslot
        have hhead : ∀ entry ∈ entriesAt (slotIn level) slot level,
            entry.row = entry.row.rest.under slot.segment := by
          intro entry hentry
          obtain ⟨hmem, hat⟩ := mem_entriesAt.mp hentry
          rw [← hplain.head_eq hmem hat]
          rfl
        rcases subtree_cases hslot with ⟨winner, hmem, hwinner, hends, heq⟩ | ⟨hfree, -, heq⟩
        · -- the messages are those of the only entry
          have hown : ownMessages? (slotIn level) slot level ≠ none := fun hnone =>
            absurd hends (Bool.eq_false_iff.mp (ownMessages?_eq_none_iff.mp hnone _ hmem hwinner))
          obtain ⟨entry, hat, hends'⟩ := entriesAt_eq_singleton hlossless hslot hown
          obtain rfl : winner = entry :=
            List.mem_singleton.mp (hat ▸ mem_entriesAt.mpr ⟨hmem, hwinner⟩)
          rw [hat, List.forall_mem_singleton] at hhead
          rw [heq, hat, List.map_singleton, hhead, rows, List.map_singleton]
          have htail := List.isEmpty_iff.mp hends
          simp [Entry.row, Row.rest, Path.segments, htail]
        · -- the entries below are the rows of the subtree
          have hbelow := ih slot hslot
            ((hslots slot hslot).1 (ownMessages?_eq_none_iff.mpr hfree)) (hplain.below hfree)
          have hrest := map_row_filterMap_below fun entry hentry =>
            hfree entry (mem_entriesAt.mp hentry).1 (mem_entriesAt.mp hentry).2
          rw [← entriesBelow] at hrest
          rw [hrest] at hbelow
          rw [heq]
          refine (hbelow.map (Row.under slot.segment)).trans (List.Perm.of_eq ?_)
          rw [List.map_map]
          exact List.map_congr_left fun entry hentry => (hhead entry hentry).symm
      have hall : ∀ entry ∈ level, ∃ slot ∈ slots level, slotIn level entry = some slot := by
        intro entry hmem
        obtain ⟨before, after, hlevel⟩ := List.append_of_mem hmem
        have hwarned : entryWarnings (slotIn level) [] (before ++ entry :: after) = [] :=
          hlevel ▸ hentries
        obtain ⟨slot, hslot, -⟩ := exists_slot_of_entryWarnings hwarned
        exact ⟨slot, mem_slots.mpr ⟨entry, hmem, hslot⟩, hslot⟩
      calc (expandLevel level).rows
          = (slots level).flatMap fun slot =>
              (subtree (slotIn level) slot level).rows.map (Row.under slot.segment) :=
            rows_expandLevel level
        List.Perm _ ((slots level).flatMap fun slot =>
              (entriesAt (slotIn level) slot level).map Entry.row) :=
            List.Perm.flatMap_left _ hslot
        _ = ((slots level).flatMap fun slot => entriesAt (slotIn level) slot level).map Entry.row :=
            List.map_flatMap.symm
        List.Perm _ (level.map Entry.row) :=
            (flatMap_entriesAt_perm (nodup_slots level) hall).map Entry.row

/-- A level that has just the rows of its tree as entries has plain indices. -/
theorem plainIndices_of_rows_perm (hrows : (level.map Entry.row).Perm (expandLevel level).rows) :
    PlainIndices level := by
  rintro place rfl reached hreach
  induction hreach using Relation.ReflTransGen.head_induction_on with
  | refl =>
      rintro ⟨⟨index, hindex⟩, digit, more, hhead⟩
      obtain ⟨slot, hslot, hsegment, -⟩ := exists_slot_of_mem hrows reached.entry_mem_level
      obtain rfl : slot = .index index :=
        Option.some.inj ((slotIn_of_head hslot hsegment).symm.trans hindex)
      -- the digits of an index start with zero only if it is zero, and then there is one digit
      have hdigits : Nat.toDigits 10 index = '0' :: digit :: more :=
        Nat.toList_repr.symm.trans ((congrArg String.toList hsegment).symm.trans hhead)
      have hzero : index = 0 := Text.eq_zero_of_head?_toDigits (by rw [hdigits]; rfl)
      subst hzero
      cases hdigits
  | @head place next hnext _ ih =>
      obtain ⟨slot, hslot, -⟩ := hnext.2
      refine ih ?_
      rw [hnext.level_eq hslot]
      have hmem : slot ∈ slots place.level := mem_slots.mpr ⟨_, place.entry_mem_level, hslot⟩
      have hperm := entriesBelow_perm hrows hmem (hnext.all_go_on hslot)
      rwa [hnext.subtree_eq hslot, hnext.level_eq hslot] at hperm

/-! ## Flat errors -/

/-- Flat errors as the rows that their paths write. -/
theorem map_row_entriesOf (errors : FlatErrors) :
    (entriesOf errors).map Entry.row
      = errors.entries.map fun entry => ⟨(Path.ofText entry.1).segments, entry.2⟩ := by
  rw [entriesOf, List.map_map]
  rfl

/-- Flattening an expanded tree gives the entries of its rows. -/
theorem map_row_entriesOf_flatten (errors : FlatErrors) :
    ((entriesOf (flatten (expand errors))).map Entry.row).Perm (expand errors).rows := by
  rw [map_row_entriesOf]
  refine ((entries_flatten_expand errors).map _).trans (List.Perm.of_eq ?_)
  rw [List.map_map]
  refine (List.map_congr_left fun row hrow => ?_).trans (List.map_id _)
  exact congrArg (Row.mk · row.messages) (segments_ofText_path hrow)

/-- **Expansion yields a normal form.** Flattening an expanded tree gives one path for each leaf,
and expanding it again gives the same tree and tells of nothing that is dropped or overwritten.
Errors are what their tree is flattened to exactly when their expansion tells of no such thing
either and their indices are written without needless zeros. -/
theorem expand_normal_form (errors : FlatErrors) :
    (flatten (expand errors)).entries.Perm
        ((expand errors).rows.map fun row => (row.path, row.messages))
      ∧ expand (flatten (expand errors)) = expand errors
      ∧ (∀ warning ∈ warnings (flatten (expand errors)), warning = .indexAboveLimit)
      ∧ (flatten (expand errors) = errors ↔
        (∀ warning ∈ warnings errors, warning = .indexAboveLimit)
          ∧ ∀ i reached, (Place.ofIndex errors i).Reaches reached →
            ¬ reached.HasLeadingZero) := by
  have hrows := map_row_entriesOf_flatten errors
  have hsame : expand (flatten (expand errors)) = expand errors := expandLevel_of_rows hrows
  have hlossless : Lossless (entriesOf (flatten (expand errors))) := by
    -- there are as many entries as leaves
    rw [lossless_iff_length_eq, ← expand, hsame, ← messages_rows, List.length_map,
      ← hrows.length_eq, List.length_map]
  refine ⟨entries_flatten_expand errors, hsame, hlossless, ?_, ?_⟩
  · intro heq
    rw [heq] at hlossless hrows
    exact ⟨hlossless, fun i => plainIndices_of_rows_perm hrows _ (Place.level_ofIndex i)⟩
  · rintro ⟨hkept, hplain⟩
    have hlevel : PlainIndices (entriesOf errors) := by
      intro place hplace
      obtain ⟨i, rfl⟩ := Place.exists_ofIndex hplace
      exact hplain i
    have hperm := (rows_perm hkept hlevel).map fun row => (row.path, row.messages)
    refine FlatErrors.ext (Ascending.eq_of_perm (flatten _).ascending errors.ascending ?_)
    refine ((entries_flatten_expand errors).trans hperm).trans (List.Perm.of_eq ?_)
    rw [map_row_entriesOf, List.map_map]
    refine (List.map_congr_left fun entry _ => ?_).trans (List.map_id _)
    exact congrArg (·, entry.2) (Path.text_ofText entry.1)

/-- Indices in the order of their texts come back, and an index with a needless zero does not. -/
theorem expand_normal_form_indices :
    let plain : FlatErrors := ⟨[("10", ["a"]), ("2", ["b"])], by
      unfold Ascending.Keys
      decide⟩
    let padded : FlatErrors := ⟨[("01", ["a"])], by
      unfold Ascending.Keys
      decide⟩
    flatten (expand plain) = plain ∧ flatten (expand padded) ≠ padded := by
  intro plain padded
  constructor
  · have hslots : ∀ slot ∈ slots (entriesOf plain),
        ownMessages? (slotIn (entriesOf plain)) slot (entriesOf plain) ≠ none
          ∧ entriesBelow (slotIn (entriesOf plain)) slot (entriesOf plain) = [] := by
      decide +kernel
    have hlossless : Lossless (entriesOf plain) :=
      lossless_iff.mpr ⟨by decide +kernel, fun slot hslot =>
        ⟨fun hnone => absurd hnone (hslots slot hslot).1, fun _ => (hslots slot hslot).2⟩⟩
    refine (expand_normal_form plain).2.2.2.mpr ⟨hlossless, fun i reached hreach => ?_⟩
    -- both entries end on the first level
    have hends : ∀ i, (Place.ofIndex plain i).entry.ends = true := by decide +kernel
    have hhead : ∀ i, (Place.ofIndex plain i).entry.path.head.toList.head? ≠ some '0' := by
      decide +kernel
    rcases Relation.ReflTransGen.cases_head hreach with rfl | ⟨next, hnext, -⟩
    · rintro ⟨-, digit, more, heq⟩
      exact hhead i (by rw [heq]; rfl)
    · exact absurd (hends i) (Bool.eq_false_iff.mp hnext.goes_on)
  · intro heq
    exact ((expand_normal_form padded).2.2.2.mp heq).2 ⟨0, by decide⟩ _
      Relation.ReflTransGen.refl ⟨⟨1, by decide +kernel⟩, '1', [], by decide +kernel⟩

end ResourceQuery.ErrorTree
