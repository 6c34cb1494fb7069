import ResourceQuery.Proofs.ErrorTree.LevelKind
import ResourceQuery.Proofs.ErrorTree.NormalForm

/-!
# Slots do not depend on each other

What stands at a slot is decided by the entries at that slot, in their order, and by nothing else on
the level (`childAt?_eq_of_entriesAt`). The entries at a slot are those flat errors whose paths
reach the level and name the slot there (`map_row_entriesAt`), and they stand in the order of the
flat errors. So flat errors that agree on a slot give the same there, however else they differ. Main
statement: `expand_independent`.
-/

set_option autoImplicit false

namespace ResourceQuery

open ErrorTree

namespace FlatErrors

/-- The flat errors that reach the level at some slots: the first segments of their paths go through
these slots. -/
def reaching (errors : FlatErrors) (address : List Slot) : List (String × List String) :=
  errors.entries.filter fun entry =>
    (expand errors).address? ((Path.ofText entry.1).segments.take address.length) = some address

/-- Those of them whose next segment names a slot there. -/
def reachingSlot (errors : FlatErrors) (address : List Slot) (slot : Slot) :
    List (String × List String) :=
  (errors.reaching address).filter fun entry =>
    ((Path.ofText entry.1).segments[address.length]?.bind fun segment =>
      ((expand errors).atSlots? address).bind (·.slot? segment)) = some slot

theorem mem_reachingSlot {errors : FlatErrors} {address : List Slot} {slot : Slot}
    {node : ErrorTree} (h : (expand errors).atSlots? address = some node)
    {entry : String × List String} :
    entry ∈ errors.reachingSlot address slot
      ↔ entry ∈ errors.entries
        ∧ (expand errors).address? ((Path.ofText entry.1).segments.take address.length)
          = some address
        ∧ (Path.ofText entry.1).segments[address.length]?.bind node.slot? = some slot := by
  simp only [reachingSlot, reaching, h, Option.bind_some, List.mem_filter, decide_eq_true_eq,
    and_assoc]

theorem reachingSlot_ascending (errors : FlatErrors) (address : List Slot) (slot : Slot) :
    Ascending.Keys (errors.reachingSlot address slot) := by
  have hsublist : (errors.reachingSlot address slot).Sublist errors.entries :=
    List.filter_sublist.trans List.filter_sublist
  exact List.Pairwise.sublist (hsublist.map _) errors.ascending

end FlatErrors

namespace ErrorTree

/-! ## Addresses -/

theorem address?_cons_eq_some_iff {tree : ErrorTree} {segment : String} {rest : List String}
    {slot : Slot} {slots : List Slot} :
    tree.address? (segment :: rest) = some (slot :: slots)
      ↔ tree.slot? segment = some slot
        ∧ ∃ child, tree.childAt? slot = some child ∧ child.address? rest = some slots := by
  simp only [address?, Option.bind_eq_some_iff, Option.map_eq_some_iff, List.cons.injEq]
  constructor
  · rintro ⟨_, hslot, child, hchild, _, haddress, rfl, rfl⟩
    exact ⟨hslot, child, hchild, haddress⟩
  · rintro ⟨hslot, child, hchild, haddress⟩
    exact ⟨slot, hslot, child, hchild, slots, haddress, rfl, rfl⟩

/-- An address is made longer by the slot that the next segment names, if something is there. -/
theorem address?_take_succ {tree node child : ErrorTree} {address : List Slot} {slot : Slot}
    (hnode : tree.atSlots? address = some node) (hchild : node.childAt? slot = some child)
    (segments : List String) :
    tree.address? (segments.take (address ++ [slot]).length) = some (address ++ [slot])
      ↔ tree.address? (segments.take address.length) = some address
        ∧ segments[address.length]?.bind node.slot? = some slot := by
  induction address generalizing tree segments with
  | nil =>
      obtain rfl : tree = node := Option.some.inj hnode
      cases segments with
      | nil => simp [address?]
      | cons segment rest =>
          show tree.address? [segment] = some [slot]
            ↔ tree.address? [] = some [] ∧ tree.slot? segment = some slot
          rw [address?_cons_eq_some_iff]
          simp [address?, hchild]
  | cons first others ih =>
      cases segments with
      | nil => simp [address?]
      | cons segment rest =>
          obtain ⟨next, hnext, hothers⟩ := Option.bind_eq_some_iff.mp hnode
          have hrest := ih hothers rest
          simp only [List.cons_append, List.length_cons, List.take_succ_cons,
            address?_cons_eq_some_iff, hnext, Option.some.injEq, exists_eq_left', hrest,
            List.getElem?_cons_succ, and_assoc]

/-! ## The entries of a level -/

/-- What is left of a flat error after some of the segments of its path. -/
def rowAfter (count : Nat) (entry : String × List String) : Row :=
  ⟨(Path.ofText entry.1).segments.drop count, entry.2⟩

theorem row_injective : Function.Injective Entry.row := by
  rintro ⟨⟨head, tail⟩, messages⟩ ⟨⟨head', tail'⟩, messages'⟩ h
  obtain ⟨hsegments, rfl⟩ := Row.mk.inj h
  obtain ⟨rfl, rfl⟩ := List.cons.inj hsegments
  rfl

variable {errors errors' : FlatErrors} {address address' : List Slot} {level level' : List Entry}
variable {slot : Slot}

/-- The entries at a slot of a level are the flat errors that name it, if the entries of the level
are the flat errors that reach it. -/
theorem map_row_entriesAt_of (hnode : (expand errors).atSlots? address = some (expandLevel level))
    (h : level.map Entry.row = (errors.reaching address).map (rowAfter address.length)) :
    (entriesAt (slotIn level) slot level).map Entry.row
      = (errors.reachingSlot address slot).map (rowAfter address.length) := by
  -- both sides select by what the next segment names in the tree
  have hlevel : entriesAt (slotIn level) slot level
      = level.filter ((fun row : Row =>
          decide (row.segments.head?.bind (expandLevel level).slot? = some slot)) ∘ Entry.row) := by
    refine List.filter_congr fun entry _ => ?_
    show decide (slotIn level entry = some slot) = _
    rw [← slot?_expandLevel]
    rfl
  have herrors : errors.reachingSlot address slot
      = (errors.reaching address).filter ((fun row : Row =>
          decide (row.segments.head?.bind (expandLevel level).slot? = some slot))
            ∘ rowAfter address.length) := by
    refine List.filter_congr fun entry _ => ?_
    simp only [hnode, Option.bind_some, Function.comp_apply, rowAfter, List.head?_drop]
  rw [hlevel, herrors, ← List.filter_map, ← List.filter_map, h]

/-- The entries of a level are the flat errors that reach it, in their order. -/
theorem map_row_level (h : LevelAt errors address level) :
    level.map Entry.row = (errors.reaching address).map (rowAfter address.length) := by
  induction h with
  | first =>
      have hall : errors.reaching [] = errors.entries :=
        List.filter_eq_self.mpr fun entry _ => decide_eq_true rfl
      rw [hall, entriesOf, List.map_map]
      rfl
  | @next address level slot hat hslot hown ih =>
      have hfree := ownMessages?_eq_none_iff.mp hown
      have hentries : (entriesAt (slotIn level) slot level).map Entry.row
          = (errors.reachingSlot address slot).map (rowAfter address.length) :=
        map_row_entriesAt_of hat.atSlots?_eq ih
      -- the same flat errors reach the slot and the level below it
      have hreaching : errors.reaching (address ++ [slot]) = errors.reachingSlot address slot := by
        obtain ⟨child, hchild⟩ : ∃ child, (expandLevel level).childAt? slot = some child := by
          obtain ⟨entry, hmem, hentry⟩ := mem_slots.mp hslot
          rw [childAt?_expandLevel,
            if_neg (List.ne_nil_of_mem (mem_entriesAt.mpr ⟨hmem, hentry⟩))]
          exact ⟨_, rfl⟩
        rw [FlatErrors.reachingSlot, FlatErrors.reaching, FlatErrors.reaching, List.filter_filter]
        refine List.filter_congr fun entry _ => ?_
        rw [← Bool.decide_and, decide_eq_decide, hat.atSlots?_eq]
        exact (address?_take_succ hat.atSlots?_eq hchild _).trans and_comm
      calc (entriesBelow (slotIn level) slot level).map Entry.row
          = (entriesAt (slotIn level) slot level).map fun entry => entry.row.rest :=
            map_row_filterMap_below fun entry hmem =>
              hfree entry (mem_entriesAt.mp hmem).1 (mem_entriesAt.mp hmem).2
        _ = ((entriesAt (slotIn level) slot level).map Entry.row).map Row.rest := by
            rw [List.map_map]
            rfl
        _ = (errors.reaching (address ++ [slot])).map (rowAfter (address ++ [slot]).length) := by
            rw [hentries, hreaching, List.map_map, List.length_append]
            refine List.map_congr_left fun entry _ => ?_
            simp only [Function.comp_apply, rowAfter, Row.rest, List.tail_drop]
            rfl

/-- The entries at a slot of a level are the flat errors that reach the level and name the slot
there, in their order. -/
theorem map_row_entriesAt (h : LevelAt errors address level) :
    (entriesAt (slotIn level) slot level).map Entry.row
      = (errors.reachingSlot address slot).map (rowAfter address.length) :=
  map_row_entriesAt_of h.atSlots?_eq (map_row_level h)

/-! ## Two runs -/

/-- What stands at a slot is decided by the entries at that slot. -/
theorem childAt?_eq_of_entriesAt
    (h : entriesAt (slotIn level) slot level = entriesAt (slotIn level') slot level') :
    (expandLevel level).childAt? slot = (expandLevel level').childAt? slot := by
  rw [childAt?_expandLevel, childAt?_expandLevel]
  simp only [subtree, ownMessages?, entriesBelow, h]

/-- Levels of one depth have the same entries at a slot if the same flat errors reach the slot. -/
theorem entriesAt_eq_of_reachingSlot (h : LevelAt errors address level)
    (h' : LevelAt errors' address' level') (hdepth : address.length = address'.length)
    (hsame : ∀ entry,
      entry ∈ errors.reachingSlot address slot ↔ entry ∈ errors'.reachingSlot address' slot) :
    entriesAt (slotIn level) slot level = entriesAt (slotIn level') slot level' := by
  have hrows : errors.reachingSlot address slot = errors'.reachingSlot address' slot :=
    Ascending.eq_of_mem_pairs_iff (errors.reachingSlot_ascending _ _)
      (errors'.reachingSlot_ascending _ _) hsame
  refine row_injective.list_map ?_
  rw [map_row_entriesAt h, map_row_entriesAt h', hrows, hdepth]

/-- **Errors of one slot do not depend on errors of another.** If the flat errors whose first
segment names a slot are the same in two runs, the runs have the same at that slot: the same tree,
or nothing. On two levels of one depth it is the same for the flat errors that reach the level and
name the slot there, and on any two levels for the entries at the slot in their order. A slot is an
index in a list and a name in a map, so nothing names it on a level of the other kind. -/
theorem expand_independent (errors errors' : FlatErrors) :
    (∀ slot,
        (∀ entry,
          (entry ∈ errors.entries
              ∧ (expand errors).slot? (Path.ofText entry.1).head = some slot)
            ↔ entry ∈ errors'.entries
              ∧ (expand errors').slot? (Path.ofText entry.1).head = some slot) →
        (expand errors).childAt? slot = (expand errors').childAt? slot)
      ∧ (∀ address address' level level' slot,
        LevelAt errors address level → LevelAt errors' address' level' →
        address.length = address'.length →
        (∀ entry, entry ∈ errors.reachingSlot address slot
          ↔ entry ∈ errors'.reachingSlot address' slot) →
        (expand errors).atSlots? (address ++ [slot])
          = (expand errors').atSlots? (address' ++ [slot]))
      ∧ ∀ level level' slot,
        entriesAt (slotIn level) slot level = entriesAt (slotIn level') slot level' →
        (expandLevel level).childAt? slot = (expandLevel level').childAt? slot := by
  refine ⟨?_, ?_, fun _ _ _ => childAt?_eq_of_entriesAt⟩
  · intro slot hsame
    -- every flat error reaches the first level
    have hfirst : ∀ (errors : FlatErrors) (entry : String × List String),
        entry ∈ errors.reachingSlot [] slot
          ↔ entry ∈ errors.entries
            ∧ (expand errors).slot? (Path.ofText entry.1).head = some slot :=
      fun _ _ => (FlatErrors.mem_reachingSlot rfl).trans (and_congr_right' (and_iff_right rfl))
    refine childAt?_eq_of_entriesAt (entriesAt_eq_of_reachingSlot .first .first rfl fun entry => ?_)
    rw [hfirst, hfirst, hsame]
  · intro address address' level level' slot h h' hdepth hsame
    have hchild := childAt?_eq_of_entriesAt (entriesAt_eq_of_reachingSlot h h' hdepth hsame)
    rw [atSlots?_append, atSlots?_append, h.atSlots?_eq, h'.atSlots?_eq, Option.bind_some,
      Option.bind_some, atSlots?, atSlots?, hchild]

/-- Two spellings of an index below `tags`, among different errors of other items and fields. -/
theorem expand_independent_spellings :
    let errors : FlatErrors :=
      ⟨[("name", ["n"]), ("tags.01", ["a"]), ("tags.1", ["b"]), ("tags.2.x", ["c"])], by
        unfold Ascending.Keys
        decide⟩
    let errors' : FlatErrors := ⟨[("tags.0", ["d"]), ("tags.01", ["a"]), ("tags.1", ["b"])], by
      unfold Ascending.Keys
      decide⟩
    (expand errors).atSlots? [.field "tags", .index 1]
        = (expand errors').atSlots? [.field "tags", .index 1]
      ∧ ((expand errors).atSlots? [.field "tags", .index 1]).bind messages? = some ["b"]
      ∧ (expand errors).childAt? (.field "other") = (expand errors').childAt? (.field "other") := by
  intro errors errors'
  -- `tags` is a level of its own in both runs
  have hlevel : LevelAt errors ([] ++ [.field "tags"]) _ :=
    .next .first (by decide +kernel) (by decide +kernel)
  have hlevel' : LevelAt errors' ([] ++ [.field "tags"]) _ :=
    .next .first (by decide +kernel) (by decide +kernel)
  have hreaching : errors.reachingSlot [.field "tags"] (.index 1)
      = errors'.reachingSlot [.field "tags"] (.index 1) := by decide +kernel
  obtain ⟨hroot, hdeeper, -⟩ := expand_independent errors errors'
  refine ⟨hdeeper _ _ _ _ _ hlevel hlevel' rfl fun entry => by rw [List.nil_append, hreaching],
    by decide +kernel, hroot _ fun entry => ?_⟩
  -- nothing names `other` in either run
  have hnone : ∀ entry ∈ errors.entries,
      (expand errors).slot? (Path.ofText entry.1).head ≠ some (.field "other") := by decide +kernel
  have hnone' : ∀ entry ∈ errors'.entries,
      (expand errors').slot? (Path.ofText entry.1).head ≠ some (.field "other") := by
    decide +kernel
  exact iff_of_false (fun h => hnone entry h.1 h.2) fun h => hnone' entry h.1 h.2

end ErrorTree

end ResourceQuery
