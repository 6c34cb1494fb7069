import ResourceQuery.Proofs.ErrorTree.Place

/-!
# Following a path through the levels

From one level to the next, the rest of a path leads to the same place of the tree
(`Place.Next.follow?_eq`), so what is found at a path is decided on the last level of its entry:
nothing if the entry has no slot or is covered there, and the messages of the last entry that ends
at its slot otherwise. Main statements: `Place.HasNoSlot.follow?_eq_none`,
`Place.IsCovered.follow?_eq_none`, `Place.IsReplacedBy.follow?_eq` and
`Place.follow?_of_not_shadowed`.
-/

set_option autoImplicit false

namespace ResourceQuery.ErrorTree

/-! ## Messages at a slot -/

section Own

variable {κ : Type} [DecidableEq κ] {slot : Entry → Option κ} {key : κ} {level : List Entry}

theorem ownMessages?_eq_none_iff :
    ownMessages? slot key level = none
      ↔ ∀ entry ∈ level, slot entry = some key → entry.ends = false := by
  simp only [ownMessages?, entriesAt, Option.map_eq_none_iff, List.getLast?_eq_none_iff,
    List.filter_filter, List.filter_eq_nil_iff, Bool.and_eq_true, decide_eq_true_eq, not_and']
  exact forall₂_congr fun entry _ => imp_congr_right fun _ => Bool.eq_false_iff.symm

theorem subtree_of_getLast? {winner : Entry}
    (h : ((entriesAt slot key level).filter Entry.ends).getLast? = some winner) :
    subtree slot key level = .messages winner.messages := by
  simp only [subtree, ownMessages?, h, Option.map_some]

theorem subtree_of_goes_on
    (h : ∀ entry ∈ level, slot entry = some key → entry.ends = false) :
    subtree slot key level = expandLevel (entriesBelow slot key level) := by
  rw [subtree, ownMessages?_eq_none_iff.mpr h]

end Own

namespace Place

variable {place next : Place} {slot : Slot}

/-- The tree of a level has something at the slot of every entry. -/
theorem childAt?_slot (hslot : place.slot? = some slot) :
    (expandLevel place.level).childAt? slot
      = some (subtree (slotIn place.level) slot place.level) := by
  have hmem : place.entry ∈ entriesAt (slotIn place.level) slot place.level :=
    mem_entriesAt.mpr ⟨place.entry_mem_level, hslot⟩
  rw [childAt?_expandLevel, if_neg (List.ne_nil_of_mem hmem)]

theorem follow?_slot (hslot : place.slot? = some slot) :
    (expandLevel place.level).follow? place.entry.path.segments
      = (subtree (slotIn place.level) slot place.level).follow? place.entry.path.tail := by
  rw [Path.segments, follow?, child?_eq, slot?_expandLevel, ← slot?, hslot, Option.bind_some,
    childAt?_slot hslot, Option.bind_some]

theorem address?_slot (hslot : place.slot? = some slot) :
    (expandLevel place.level).address? place.entry.path.segments
      = ((subtree (slotIn place.level) slot place.level).address? place.entry.path.tail).map
          (slot :: ·) := by
  rw [Path.segments, address?, slot?_expandLevel, ← slot?, hslot, Option.bind_some,
    childAt?_slot hslot, Option.bind_some]

/-! ## From one level to the next -/

/-- All entries at the slot of an entry that has a next level go on. -/
theorem Next.all_go_on (h : Next place next) (hslot : place.slot? = some slot) :
    ∀ entry ∈ place.level, slotIn place.level entry = some slot → entry.ends = false := by
  intro entry hmem hentry
  cases hends : entry.ends with
  | false => rfl
  | true => exact absurd ⟨h.goes_on, slot, hslot, entry, hmem, hends, hentry⟩ h.1

/-- Below a slot that is not covered stands the tree of the next level. -/
theorem Next.subtree_eq (h : Next place next) (hslot : place.slot? = some slot) :
    subtree (slotIn place.level) slot place.level = expandLevel next.level := by
  rw [h.level_eq hslot]
  exact subtree_of_goes_on (h.all_go_on hslot)

theorem Next.tail_eq (h : Next place next) :
    place.entry.path.tail = next.entry.path.segments := by
  obtain ⟨-, -, -, hbelow, -, -⟩ := h
  exact (Entry.below?_eq_some_iff.mp hbelow).1

theorem Next.follow?_eq (h : Next place next) :
    (expandLevel place.level).follow? place.entry.path.segments
      = (expandLevel next.level).follow? next.entry.path.segments := by
  obtain ⟨slot, hslot, -⟩ := h.2
  rw [follow?_slot hslot, h.subtree_eq hslot, h.tail_eq]

theorem Next.address?_eq (h : Next place next) (hslot : place.slot? = some slot) :
    (expandLevel place.level).address? place.entry.path.segments
      = ((expandLevel next.level).address? next.entry.path.segments).map (slot :: ·) := by
  rw [address?_slot hslot, h.subtree_eq hslot, h.tail_eq]

theorem Reaches.follow?_eq {reached : Place} (h : place.Reaches reached) :
    (expandLevel place.level).follow? place.entry.path.segments
      = (expandLevel reached.level).follow? reached.entry.path.segments := by
  induction h with
  | refl => rfl
  | tail _ hnext ih => rw [ih, hnext.follow?_eq]

/-! ## The last level -/

theorem HasNoSlot.follow?_eq_none (h : place.HasNoSlot) :
    (expandLevel place.level).follow? place.entry.path.segments = none := by
  rw [Path.segments, follow?, child?_eq, slot?_expandLevel, ← slot?, hasNoSlot_iff.mp h]
  rfl

/-- The entries at the slot of an entry: some before it, the entry, and some after it. -/
theorem entriesAt_level (hslot : place.slot? = some slot) :
    entriesAt (slotIn place.level) slot place.level
      = entriesAt (slotIn place.level) slot place.before
        ++ place.entry :: entriesAt (slotIn place.level) slot place.after := by
  have hentry : slotIn place.level place.entry = some slot := hslot
  calc entriesAt (slotIn place.level) slot place.level
      = entriesAt (slotIn place.level) slot place.before
          ++ entriesAt (slotIn place.level) slot (place.entry :: place.after) :=
        List.filter_append ..
    _ = entriesAt (slotIn place.level) slot place.before
          ++ place.entry :: entriesAt (slotIn place.level) slot place.after :=
        congrArg _ (List.filter_cons_of_pos (decide_eq_true hentry))

/-- The last of the entries that end at the slot of an entry that ends there itself. -/
theorem getLast?_slot (hslot : place.slot? = some slot) (hends : place.entry.ends = true) :
    ((entriesAt (slotIn place.level) slot place.level).filter Entry.ends).getLast?
      = some ((((entriesAt (slotIn place.level) slot place.after).filter Entry.ends).getLast?).getD
          place.entry) := by
  rw [entriesAt_level hslot, List.filter_append, List.filter_cons_of_pos hends,
    List.getLast?_append, List.getLast?_cons, Option.some_or]

/-- Where messages end at a slot, nothing is found below it. -/
theorem IsCovered.follow?_eq_none (h : place.IsCovered) :
    (expandLevel place.level).follow? place.entry.path.segments = none := by
  obtain ⟨hgoes, slot, hslot, other, hmem, hends, hother⟩ := h
  have hown : other ∈ (entriesAt (slotIn place.level) slot place.level).filter Entry.ends :=
    List.mem_filter.mpr ⟨mem_entriesAt.mpr ⟨hmem, hother⟩, hends⟩
  have hlast := List.getLast?_eq_some_getLast (List.ne_nil_of_mem hown)
  rw [follow?_slot hslot, subtree_of_getLast? hlast]
  -- the entry has another segment, and a leaf has no children
  cases htail : place.entry.path.tail with
  | nil => rw [Entry.ends, htail] at hgoes; cases hgoes
  | cons segment rest => rfl

/-- Where an entry ends at a slot, the last entry that ends there is found. -/
theorem follow?_of_ends (hslot : place.slot? = some slot) (hends : place.entry.ends = true) :
    (expandLevel place.level).follow? place.entry.path.segments
      = some (.messages ((((entriesAt (slotIn place.level) slot place.after).filter
          Entry.ends).getLast?).getD place.entry).messages) := by
  rw [follow?_slot hslot, subtree_of_getLast? (getLast?_slot hslot hends),
    List.isEmpty_iff.mp hends]
  rfl

theorem IsReplacedBy.follow?_eq {winner : Entry} (h : place.IsReplacedBy winner) :
    (expandLevel place.level).follow? place.entry.path.segments
      = some (.messages winner.messages) := by
  obtain ⟨hends, slot, hslot, hwinner⟩ := h
  rw [follow?_of_ends hslot hends, hwinner, Option.getD_some]

/-- An entry that is not shadowed is found with its messages. -/
theorem follow?_of_not_shadowed (h : ¬ place.Shadowed) :
    (expandLevel place.level).follow? place.entry.path.segments
      = some (.messages place.entry.messages) := by
  obtain ⟨reached, hreach, hlost | ⟨hends, slot, hslot⟩⟩ := exists_last place
  · exact absurd ⟨reached, hreach, hlost⟩ h
  -- the entry ends at its slot, and a winner there would shadow it
  · rw [hreach.follow?_eq, follow?_of_ends hslot hends, ← hreach.messages_eq]
    cases hlast : ((entriesAt (slotIn reached.level) slot reached.after).filter
        Entry.ends).getLast? with
    | none => rfl
    | some winner =>
        exact absurd ⟨reached, hreach, .inr (.inr ⟨winner, hends, slot, hslot, hlast⟩)⟩ h

/-- Such an entry has an address, and it is that of its messages. -/
theorem exists_address_of_not_shadowed (h : ¬ place.Shadowed) :
    ∃ address, (expandLevel place.level).address? place.entry.path.segments = some address
      ∧ (expandLevel place.level).atSlots? address = some (.messages place.entry.messages) := by
  have hfound := follow?_of_not_shadowed h
  rw [ErrorTree.follow?_eq, Option.bind_eq_some_iff] at hfound
  exact hfound

end Place

end ResourceQuery.ErrorTree
