import Mathlib.Logic.ExistsUnique
import Mathlib.Tactic.ByContra
import ResourceQuery.Proofs.ErrorTree.Lookup

/-!
# The fate of every flat error

An entry that is not shadowed is found at its path with its messages. One that is shadowed is not:
nothing is there if it has no slot or is covered on some level, and the messages of the winner if it
is replaced. Entries that are not shadowed have different addresses (`Place.eq_of_address?_eq`), and
every leaf of the tree is at the address of one of them (`Place.exists_of_atSlots?`). Main
statement: `expand_fate`.
-/

set_option autoImplicit false

namespace ResourceQuery.ErrorTree

namespace Place

variable {place next : Place} {slot : Slot}

/-! ## One entry for each leaf -/

/-- Of the entries that end at one slot, all but the last are replaced. -/
theorem Before.shadowed {later : Place} (h : place.Before later)
    (hlevel : place.level = later.level) (hslot : place.slot? = some slot)
    (hlater : later.slot? = some slot) (hends : place.entry.ends = true)
    (hends' : later.entry.ends = true) : place.Shadowed := by
  have hmem : later.entry
      ∈ (entriesAt (slotIn place.level) slot place.after).filter Entry.ends := by
    refine List.mem_filter.mpr ⟨mem_entriesAt.mpr ⟨h.entry_mem_after, ?_⟩, hends'⟩
    rw [hlevel]
    exact hlater
  have hlast := List.getLast?_eq_some_getLast (List.ne_nil_of_mem hmem)
  exact IsLost.shadowed (.inr (.inr ⟨_, hends, slot, hslot, hlast⟩))

/-- Where one entry ends at a slot, an entry that goes on there is covered. -/
theorem ends_of_ends {place' : Place} (hlevel : place.level = place'.level)
    (hslot : place.slot? = some slot) (hslot' : place'.slot? = some slot)
    (hkept : ¬ place.Shadowed) (hends : place'.entry.ends = true) : place.entry.ends = true := by
  by_contra hgoes
  have hmem : place'.entry ∈ place.level := hlevel ▸ place'.entry_mem_level
  have hother : slotIn place.level place'.entry = some slot := by
    rw [hlevel]
    exact hslot'
  have hcover : place.IsCovered :=
    ⟨Bool.eq_false_iff.mpr hgoes, slot, hslot, place'.entry, hmem, hends, hother⟩
  exact hkept (IsLost.shadowed (.inr (.inl hcover)))

theorem exists_next_of_not_shadowed (hslot : place.slot? = some slot) (hkept : ¬ place.Shadowed)
    (hends : place.entry.ends = false) : ∃ next, Next place next ∧ ¬ next.Shadowed := by
  have hcover : ¬ place.IsCovered := fun h => hkept (IsLost.shadowed (.inr (.inl h)))
  obtain ⟨next, hnext⟩ := exists_next hslot hcover hends
  exact ⟨next, hnext, mt hnext.shadowed_iff.mpr hkept⟩

theorem slot?_of_address? {rest : List Slot}
    (h : (expandLevel place.level).address? place.entry.path.segments = some (slot :: rest)) :
    place.slot? = some slot := by
  cases hslot : place.slot? with
  | none =>
      rw [Path.segments, address?, slot?_expandLevel, ← slot?, hslot] at h
      cases h
  | some first =>
      rw [address?_slot hslot] at h
      obtain ⟨more, -, hmore⟩ := Option.map_eq_some_iff.mp h
      rw [(List.cons.inj hmore).1]

theorem Next.address?_rest {rest : List Slot} (hnext : Next place next)
    (h : (expandLevel place.level).address? place.entry.path.segments = some (slot :: rest)) :
    (expandLevel next.level).address? next.entry.path.segments = some rest := by
  rw [hnext.address?_eq (slot?_of_address? h)] at h
  obtain ⟨more, hmore, hcons⟩ := Option.map_eq_some_iff.mp h
  rw [hmore, (List.cons.inj hcons).2]

/-- Two entries of one level that are not shadowed have different addresses. -/
theorem eq_of_address?_eq {place' : Place} {address : List Slot}
    (hlevel : place.level = place'.level) (hkept : ¬ place.Shadowed) (hkept' : ¬ place'.Shadowed)
    (h : (expandLevel place.level).address? place.entry.path.segments = some address)
    (h' : (expandLevel place'.level).address? place'.entry.path.segments = some address) :
    place = place' := by
  induction address generalizing place place' with
  | nil =>
      rw [Path.segments, address?] at h
      simp [Option.bind_eq_some_iff] at h
  | cons slot rest ih =>
      have hslot := slot?_of_address? h
      have hslot' := slot?_of_address? h'
      -- at one slot both entries end or both go on
      cases hends : place.entry.ends with
      | true =>
          have hends' := ends_of_ends hlevel.symm hslot' hslot hkept' hends
          rcases eq_or_before_or_before hlevel with heq | hbefore | hbefore
          · exact heq
          · exact absurd (hbefore.shadowed hlevel hslot hslot' hends hends') hkept
          · exact absurd (hbefore.shadowed hlevel.symm hslot' hslot hends' hends) hkept'
      | false =>
          have hends' : place'.entry.ends = false := by
            cases hended : place'.entry.ends with
            | false => rfl
            | true => exact (ends_of_ends hlevel hslot hslot' hkept hended).symm.trans hends
          obtain ⟨next, hnext, hbelow⟩ := exists_next_of_not_shadowed hslot hkept hends
          obtain ⟨next', hnext', hbelow'⟩ := exists_next_of_not_shadowed hslot' hkept' hends'
          have hlevels : next.level = next'.level := by
            rw [hnext.level_eq hslot, hnext'.level_eq hslot', hlevel]
          obtain rfl : next = next' :=
            ih hlevels hbelow hbelow' (hnext.address?_rest h) (hnext'.address?_rest h')
          exact hnext.injective hlevel hslot hslot' hnext'

/-- A place on the next level comes from a place on this one. -/
theorem exists_place_above {level : List Entry} {below : Place}
    (hbelow : below.level = entriesBelow (slotIn level) slot level)
    (hfree : ∀ entry ∈ level, slotIn level entry = some slot → entry.ends = false) :
    ∃ place : Place, place.level = level ∧ place.slot? = some slot ∧ Next place below := by
  rw [entriesBelow_eq_filterMap] at hbelow
  obtain ⟨before, tail, hsplit, hbefore, htail⟩ := List.filterMap_eq_append_iff.mp hbelow.symm
  obtain ⟨between, entry, after, rfl, hbetween, hentry, hafter⟩ :=
    List.filterMap_eq_cons_iff.mp htail
  -- what stands between `before` and the entry does not go on below the slot
  have hlevel : (Place.mk (before ++ between) entry after).level = level := by
    rw [hsplit, Place.level, List.append_assoc]
  have hslot : slotIn level entry = some slot := by
    by_contra hne
    rw [if_neg hne] at hentry
    cases hentry
  rw [if_pos hslot] at hentry
  refine ⟨⟨before ++ between, entry, after⟩, hlevel, ?_, ?_, slot, ?_, hentry, ?_, ?_⟩
  · rw [slot?, hlevel]
    exact hslot
  · rintro ⟨-, slot', hslot', other, hmem, hends, hother⟩
    rw [slot?, hlevel, hslot, Option.mem_some_iff] at hslot'
    subst hslot'
    rw [hlevel] at hmem hother
    rw [hfree other hmem hother] at hends
    cases hends
  · rw [slot?, hlevel]
    exact hslot
  · rw [hlevel, entriesBelow_eq_filterMap, List.filterMap_append, hbefore,
      List.filterMap_eq_nil_iff.mpr hbetween, List.append_nil]
  · rw [hlevel, entriesBelow_eq_filterMap, hafter]

theorem not_shadowed_of_ends (hslot : place.slot? = some slot) (hends : place.entry.ends = true)
    (hlast : (entriesAt (slotIn place.level) slot place.after).filter Entry.ends = []) :
    ¬ place.Shadowed := by
  rintro ⟨reached, hreach, hlost⟩
  rcases Relation.ReflTransGen.cases_head hreach with rfl | ⟨next, hnext, -⟩
  · -- each way of being lost on this level
    rcases hlost with hnone | ⟨hgoes, -⟩ | ⟨winner, -, slot', hslot', hwinner⟩
    · rw [hasNoSlot_iff.mp hnone] at hslot
      cases hslot
    · exact absurd hends (Bool.eq_false_iff.mp hgoes)
    · obtain rfl : slot = slot' := Option.mem_unique hslot hslot'
      rw [hlast] at hwinner
      cases hwinner
  · -- nothing that ends goes on to another level
    exact absurd hends (Bool.eq_false_iff.mp hnext.goes_on)

/-- The last entry with a property splits a row: no later entry has it. -/
theorem exists_split_of_getLast? {p : Entry → Bool} {level : List Entry} {winner : Entry}
    (h : (level.filter p).getLast? = some winner) :
    ∃ before after, level = before ++ winner :: after ∧ p winner = true ∧ after.filter p = [] := by
  obtain ⟨kept, hkept⟩ := List.getLast?_eq_some_iff.mp h
  obtain ⟨before, tail, rfl, -, htail⟩ := List.filter_eq_append_iff.mp hkept
  obtain ⟨between, after, rfl, -, hwinner, hafter⟩ := List.filter_eq_cons_iff.mp htail
  exact ⟨before ++ between, after, by simp, hwinner, hafter⟩

/-- The last entry that ends at a slot is kept there. -/
theorem exists_place_of_getLast? {level : List Entry} {winner : Entry}
    (h : ((entriesAt (slotIn level) slot level).filter Entry.ends).getLast? = some winner) :
    ∃ place : Place, place.level = level ∧ ¬ place.Shadowed ∧ place.slot? = some slot
      ∧ place.entry = winner ∧ winner.ends = true := by
  rw [entriesAt, List.filter_filter] at h
  obtain ⟨before, after, rfl, hwinner, hafter⟩ := exists_split_of_getLast? h
  rw [Bool.and_eq_true, decide_eq_true_eq] at hwinner
  obtain ⟨hends, hslot⟩ := hwinner
  refine ⟨⟨before, winner, after⟩, rfl, not_shadowed_of_ends hslot hends ?_, hslot, rfl, hends⟩
  rw [entriesAt, List.filter_filter]
  exact hafter

/-- Every leaf of the tree of a level has an entry of that level that is not shadowed. -/
theorem exists_of_atSlots? {level : List Entry} {address : List Slot} {texts : List String}
    (h : (expandLevel level).atSlots? address = some (.messages texts)) :
    ∃ place : Place, place.level = level ∧ ¬ place.Shadowed
      ∧ (expandLevel place.level).address? place.entry.path.segments = some address
      ∧ place.entry.messages = texts := by
  induction address generalizing level with
  | nil =>
      rw [atSlots?, expandLevel_eq] at h
      cases hl : isListLevel level with
      | true => simp [hl] at h
      | false => simp [hl] at h
  | cons slot rest ih =>
      rw [atSlots?, childAt?_expandLevel] at h
      by_cases hnil : entriesAt (slotIn level) slot level = []
      · rw [if_pos hnil] at h
        cases h
      rw [if_neg hnil, Option.bind_some] at h
      cases hlast : ((entriesAt (slotIn level) slot level).filter Entry.ends).getLast? with
      | some winner =>
          -- the leaf is that of the last entry that ends at the slot
          obtain ⟨place, rfl, hkept, hslot, rfl, hends⟩ := exists_place_of_getLast? hlast
          rw [subtree_of_getLast? hlast] at h
          have hrest : rest = [] ∧ place.entry.messages = texts := by
            cases rest with
            | nil => simpa [atSlots?] using h
            | cons slot' more => simp [atSlots?, childAt?] at h
          refine ⟨place, rfl, hkept, ?_, hrest.2⟩
          rw [address?_slot hslot, List.isEmpty_iff.mp hends, hrest.1]
          rfl
      | none =>
          -- the leaf is below the slot, and its entry comes from this level
          have hfree : ∀ entry ∈ level, slotIn level entry = some slot → entry.ends = false :=
            ownMessages?_eq_none_iff.mp (by rw [ownMessages?, hlast, Option.map_none])
          rw [subtree_of_goes_on hfree] at h
          obtain ⟨below, hbelow, hkept, haddress, hmessages⟩ := ih h
          obtain ⟨place, hlevel, hslot, hnext⟩ := exists_place_above hbelow hfree
          refine ⟨place, hlevel, mt hnext.shadowed_iff.mp hkept, ?_, ?_⟩
          · rw [hnext.address?_eq hslot, haddress, Option.map_some]
          · rw [← Reaches.messages_eq (Relation.ReflTransGen.single hnext)]
            exact hmessages

/-! ## Flat errors -/

variable {errors : FlatErrors}

/-- An entry of flat errors among all of them, in the order of their paths. -/
def ofIndex (errors : FlatErrors) (i : Fin errors.entries.length) : Place :=
  ⟨(entriesOf errors).take i, ⟨Path.ofText errors.entries[i].1, errors.entries[i].2⟩,
    (entriesOf errors).drop (i + 1)⟩

theorem level_ofIndex (i : Fin errors.entries.length) :
    (ofIndex errors i).level = entriesOf errors := by
  have hlength : i < (entriesOf errors).length := by
    rw [entriesOf, List.length_map]
    exact i.isLt
  have hentry : (⟨Path.ofText errors.entries[i].1, errors.entries[i].2⟩ : Entry)
      = (entriesOf errors)[i] := by
    simp [entriesOf]
  rw [level, ofIndex, hentry]
  exact (congrArg _ (List.getElem_cons_drop hlength)).trans (List.take_append_drop ..)

theorem length_before_ofIndex (i : Fin errors.entries.length) :
    (ofIndex errors i).before.length = i := by
  have hlt := i.isLt
  rw [ofIndex, List.length_take, entriesOf, List.length_map]
  omega

theorem ofIndex_injective {i j : Fin errors.entries.length}
    (h : ofIndex errors i = ofIndex errors j) : i = j := by
  rw [Fin.ext_iff, ← length_before_ofIndex i, h, length_before_ofIndex]

/-- Every place among the entries of flat errors is that of one of them. -/
theorem exists_ofIndex {place : Place} (h : place.level = entriesOf errors) :
    ∃ i, ofIndex errors i = place := by
  have hlt : place.before.length < errors.entries.length := by
    have hlength := congrArg List.length h
    rw [level, entriesOf, List.length_map, List.length_append, List.length_cons] at hlength
    omega
  refine ⟨⟨place.before.length, hlt⟩, ?_⟩
  have hlevel : (ofIndex errors ⟨_, hlt⟩).level = place.level := (level_ofIndex _).trans h.symm
  have hlength : (ofIndex errors ⟨_, hlt⟩).before.length = place.before.length :=
    length_before_ofIndex _
  -- places of one level with as many entries before them are the same
  rcases eq_or_before_or_before hlevel with heq | hbefore | hbefore
  · exact heq
  · exact absurd hbefore.length_lt (by rw [hlength]; exact Nat.lt_irrefl _)
  · exact absurd hbefore.length_lt (by rw [hlength]; exact Nat.lt_irrefl _)

end Place

/-- **The fate of every flat error.** Follow an entry down the levels. If it is not shadowed, its
messages are found at its path; if on some level it has no slot or is covered, nothing is found; and
if it is replaced, the messages of the winner are found. The leaves of the tree belong to the
entries that are not shadowed, one to one. -/
theorem expand_fate (errors : FlatErrors) :
    (∀ i : Fin errors.entries.length,
      (¬ (Place.ofIndex errors i).Shadowed →
        (expand errors).at? errors.entries[i].1 = some (.messages errors.entries[i].2))
      ∧ (∀ reached, (Place.ofIndex errors i).Reaches reached →
        reached.HasNoSlot ∨ reached.IsCovered →
          (expand errors).at? errors.entries[i].1 = none)
      ∧ ∀ reached winner, (Place.ofIndex errors i).Reaches reached →
        reached.IsReplacedBy winner →
          (expand errors).at? errors.entries[i].1 = some (.messages winner.messages))
    ∧ ∀ address texts, (expand errors).atSlots? address = some (.messages texts)
        ↔ ∃! i : Fin errors.entries.length, ¬ (Place.ofIndex errors i).Shadowed
          ∧ (expand errors).address? (Path.ofText errors.entries[i].1).segments = some address
          ∧ errors.entries[i].2 = texts := by
  have hlevel : ∀ i, expand errors = expandLevel (Place.ofIndex errors i).level := by
    intro i
    rw [Place.level_ofIndex, expand]
  constructor
  · -- from an entry to what is found at its path
    intro i
    have hat : (expand errors).at? errors.entries[i].1
        = (expandLevel (Place.ofIndex errors i).level).follow?
          (Place.ofIndex errors i).entry.path.segments := by
      rw [at?, hlevel i]
      rfl
    rw [hat]
    refine ⟨Place.follow?_of_not_shadowed, ?_, ?_⟩
    · rintro reached hreach (hnone | hcover)
      · rw [hreach.follow?_eq, hnone.follow?_eq_none]
      · rw [hreach.follow?_eq, hcover.follow?_eq_none]
    · intro reached winner hreach hreplaced
      rw [hreach.follow?_eq, hreplaced.follow?_eq]
  · -- from a leaf to the one entry that it is from, and back
    intro address texts
    constructor
    · intro hleaf
      obtain ⟨place, hplace, hkept, haddress, hmessages⟩ := Place.exists_of_atSlots? hleaf
      obtain ⟨i, rfl⟩ := Place.exists_ofIndex hplace
      refine ⟨i, ⟨hkept, ?_, hmessages⟩, ?_⟩
      · rw [hlevel i]
        exact haddress
      · -- another such entry has the same address, so it is the same
        rintro j ⟨hkept', haddress', -⟩
        rw [hlevel j] at haddress'
        refine Place.ofIndex_injective (Place.eq_of_address?_eq ?_ hkept' hkept haddress' haddress)
        rw [Place.level_ofIndex, Place.level_ofIndex]
    · rintro ⟨i, ⟨hkept, haddress, rfl⟩, -⟩
      obtain ⟨address', haddress', hleaf⟩ := Place.exists_address_of_not_shadowed hkept
      rw [hlevel i] at haddress ⊢
      obtain rfl : address' = address := Option.some.inj (haddress'.symm.trans haddress)
      exact hleaf

/-- Two spellings of one index, an entry below it and a head that is no index, all on one level. -/
theorem expand_fate_mixed :
    let errors : FlatErrors :=
      ⟨[("01", ["a"]), ("1", ["b"]), ("1.x", ["c"]), ("y", ["d"])], by
        unfold Ascending.Keys
        decide⟩
    (expand errors).at? "01" = some (.messages ["b"])
      ∧ (expand errors).at? "1" = some (.messages ["b"])
      ∧ (expand errors).at? "1.x" = none
      ∧ (expand errors).at? "y" = none := by
  intro errors
  have hstay : ∀ place : Place, place.Reaches place := fun _ => Relation.ReflTransGen.refl
  have hslot : ∀ i : Fin 3,
      (Place.ofIndex errors (i.castLE (by decide))).slot? = some (.index 1) := by
    decide +kernel
  refine ⟨?_, ?_, ?_, ?_⟩
  · -- replaced by the other spelling
    exact ((expand_fate errors).1 0).2.2 _ ⟨⟨"1", []⟩, ["b"]⟩ (hstay _)
      ⟨by decide +kernel, .index 1, hslot 0, by decide +kernel⟩
  · -- the last to end at its slot
    exact ((expand_fate errors).1 1).1
      (Place.not_shadowed_of_ends (hslot 1) (by decide +kernel) (by decide +kernel))
  · -- covered by the messages of the item
    exact ((expand_fate errors).1 2).2.1 _ (hstay _) (.inr ⟨by decide +kernel, .index 1, hslot 2,
      ⟨⟨"1", []⟩, ["b"]⟩, by decide +kernel, by decide +kernel, by decide +kernel⟩)
  · -- no index in a list
    exact ((expand_fate errors).1 3).2.1 _ (hstay _) (.inl ⟨by decide +kernel, by decide +kernel⟩)

end ResourceQuery.ErrorTree
