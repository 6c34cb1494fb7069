import ResourceQuery.Proofs.ErrorTree.Flatten

/-!
# Expansions that lose nothing

A level is lossless when expanding it tells of no entry that was dropped or overwritten, so that at
most the size of an index is remarked on. Then every entry has a slot, messages end at a slot alone
(`entriesAt_eq_singleton`), and the levels below are lossless (`lossless_iff`). Main statement: a
level is lossless exactly when it has as many entries as its tree has leaves
(`lossless_iff_length_eq`).
-/

set_option autoImplicit false

namespace ResourceQuery.ErrorTree

open Warning

/-- Expanding the level drops and overwrites nothing. -/
def Lossless (level : List Entry) : Prop :=
  ∀ warning ∈ levelWarnings level, warning = .indexAboveLimit

/-! ## Warnings by slot -/

def Slot.drop (count : Nat) : Slot → Warning
  | .index value => .droppedBelowIndex count value
  | .field name => .droppedBelowField count name

section Find

variable {κ ι : Type} [DecidableEq κ] [DecidableEq ι]
variable {find : Entry → Option κ} {find' : Entry → Option ι}

/-- Entries are told of alike if their slots are told apart alike. -/
theorem entryWarnings_congr {name : κ → ι} (hname : Function.Injective name)
    (h : ∀ entry, find' entry = (find entry).map name) (earlier rest : List Entry) :
    entryWarnings find' earlier rest = entryWarnings find earlier rest := by
  -- the slots correspond one to one, so the same entries end at them
  have hsame : ∀ key entry, find' entry = some (name key) ↔ find entry = some key := by
    intro key entry
    rw [h entry]
    exact Option.map_eq_some_iff.trans ⟨fun ⟨_, hfind, heq⟩ => hname heq ▸ hfind, fun hfind =>
      ⟨key, hfind, rfl⟩⟩
  have hown : ∀ key level, ownMessages? find' (name key) level = ownMessages? find key level := by
    intro key level
    rw [ownMessages?, entriesAt_congr (hsame key), ownMessages?]
  induction rest generalizing earlier with
  | nil => rfl
  | cons entry rest ih =>
      rw [entryWarnings, entryWarnings, ih, h entry]
      cases find entry with
      | none => rfl
      | some key => simp only [Option.map_some, hown]

theorem slotWarnings_congr {drop : Nat → κ → Warning} {drop' : Nat → ι → Warning} {key : κ}
    {key' : ι} (h : ∀ entry, find entry = some key ↔ find' entry = some key')
    (hdrop : ∀ count, drop count key = drop' count key') (level : List Entry) :
    slotWarnings find drop key level = slotWarnings find' drop' key' level := by
  have hown : ownMessages? find key level = ownMessages? find' key' level := by
    rw [ownMessages?, entriesAt_congr h, ownMessages?]
  have hbelow : entriesBelow find key level = entriesBelow find' key' level := by
    rw [entriesBelow, entriesAt_congr h, entriesBelow]
  simp only [slotWarnings, hown, hbelow, hdrop]

omit [DecidableEq ι] in
/-- A warning about a single entry tells of one loss. -/
theorem lost_of_mem_entryWarnings {earlier rest : List Entry} {warning : Warning}
    (h : warning ∈ entryWarnings find earlier rest) : warning.lost = 1 := by
  induction rest generalizing earlier with
  | nil => cases h
  | cons entry rest ih =>
      rw [entryWarnings, List.mem_append] at h
      rcases h with h | h
      · cases hfind : find entry with
        | none =>
            simp only [hfind, List.mem_singleton] at h
            rw [h, lost]
        | some key =>
            cases hown : ownMessages? find key earlier with
            | none => simp [hfind, hown] at h
            | some replaced =>
                simp only [hfind, hown, List.mem_ite_nil_right, List.mem_singleton] at h
                rw [h.2, lost]
      · exact ih h

omit [DecidableEq ι] in
theorem entryWarnings_append (earlier front back : List Entry) :
    entryWarnings find earlier (front ++ back)
      = entryWarnings find earlier front ++ entryWarnings find (earlier ++ front) back := by
  induction front generalizing earlier with
  | nil => rw [List.nil_append, entryWarnings, List.nil_append, List.append_nil]
  | cons entry rest ih =>
      rw [List.cons_append, entryWarnings, entryWarnings, ih, List.append_assoc,
        List.append_assoc, List.singleton_append]

omit [DecidableEq ι] in
/-- An entry that is not told of has a slot, and messages that end there are the first to do so. -/
theorem exists_slot_of_entryWarnings {before after : List Entry} {entry : Entry}
    (h : entryWarnings find [] (before ++ entry :: after) = []) :
    ∃ key, find entry = some key ∧ (entry.ends = true → ownMessages? find key before = none) := by
  rw [entryWarnings_append, List.append_eq_nil_iff, List.nil_append, entryWarnings,
    List.append_eq_nil_iff] at h
  have hnow := h.2.1
  cases hfind : find entry with
  | none => simp [hfind] at hnow
  | some key =>
      refine ⟨key, rfl, fun hends => ?_⟩
      cases hown : ownMessages? find key before with
      | none => rfl
      | some replaced => simp [hfind, hends, hown] at hnow

end Find

variable {level : List Entry} {slot : Slot}

theorem levelWarnings_eq_slots (level : List Entry) :
    levelWarnings level
      = (if exceedsLimit level then [.indexAboveLimit] else []) ++
        (entryWarnings (slotIn level) [] level ++ (slots level).flatMap fun slot =>
          slotWarnings (slotIn level) Slot.drop slot level) := by
  rw [levelWarnings_eq]
  refine congrArg _ ?_
  cases hl : isListLevel level with
  | true =>
      have hentries : entryWarnings (slotIn level) [] level = entryWarnings indexSlot [] level :=
        entryWarnings_congr (fun _ _ => Slot.index.inj) (slotIn_list hl) [] level
      rw [if_pos rfl, hentries, slots, hl, if_pos rfl, List.flatMap_map]
      have hslots : ∀ index, slotWarnings indexSlot .droppedBelowIndex index level
          = slotWarnings (slotIn level) Slot.drop (.index index) level :=
        fun index => slotWarnings_congr (indexSlot_eq_some_iff hl) (fun _ => rfl) level
      simp only [hslots]
  | false =>
      have hentries : entryWarnings (slotIn level) [] level = entryWarnings nameSlot [] level :=
        entryWarnings_congr (fun _ _ => Slot.field.inj) (slotIn_map hl) [] level
      rw [if_neg Bool.false_ne_true, hentries, slots, hl, if_neg Bool.false_ne_true,
        List.flatMap_map]
      have hslots : ∀ name, slotWarnings nameSlot .droppedBelowField name level
          = slotWarnings (slotIn level) Slot.drop (.field name) level :=
        fun name => slotWarnings_congr (nameSlot_eq_some_iff hl) (fun _ => rfl) level
      simp only [hslots]

/-! ## Lossless levels -/

/-- A level is lossless when no entry is told of, nothing goes on below messages, and the levels
below are lossless. -/
theorem lossless_iff :
    Lossless level ↔ entryWarnings (slotIn level) [] level = []
      ∧ ∀ slot ∈ slots level,
        (ownMessages? (slotIn level) slot level = none →
          Lossless (entriesBelow (slotIn level) slot level))
        ∧ (ownMessages? (slotIn level) slot level ≠ none →
          entriesBelow (slotIn level) slot level = []) := by
  -- of what is told, the size of an index is no loss
  have hlimit : ∀ warning ∈ if exceedsLimit level then [Warning.indexAboveLimit] else [],
      warning = .indexAboveLimit := by
    intro warning hmem
    rw [List.mem_ite_nil_right, List.mem_singleton] at hmem
    exact hmem.2
  -- whatever is told of a single entry is one
  have hentries : (∀ warning ∈ entryWarnings (slotIn level) [] level, warning = .indexAboveLimit)
      ↔ entryWarnings (slotIn level) [] level = [] := by
    rw [List.eq_nil_iff_forall_not_mem]
    refine forall₂_congr fun warning hmem => iff_of_false ?_ fun h => h
    rintro rfl
    exact absurd (lost_of_mem_entryWarnings hmem) (by decide)
  have hslot : ∀ slot,
      (∀ warning ∈ slotWarnings (slotIn level) Slot.drop slot level, warning = .indexAboveLimit)
        ↔ (ownMessages? (slotIn level) slot level = none →
            Lossless (entriesBelow (slotIn level) slot level))
          ∧ (ownMessages? (slotIn level) slot level ≠ none →
            entriesBelow (slotIn level) slot level = []) := by
    intro slot
    rw [slotWarnings]
    cases hown : ownMessages? (slotIn level) slot level with
    | none => simp [Lossless]
    -- messages end there, so whatever goes on is dropped
    | some texts =>
        cases hbelow : entriesBelow (slotIn level) slot level with
        | nil => simp
        | cons entry rest => cases slot <;> simp [Slot.drop]
  rw [Lossless, levelWarnings_eq_slots, List.forall_mem_append, List.forall_mem_append, hentries,
    List.forall_mem_flatMap, and_iff_right hlimit]
  simp only [hslot]

/-- Every warning tells of a loss, except the one about the size of an index. -/
theorem eq_indexAboveLimit {warning : Warning} (h : warning ∈ levelWarnings level)
    (hlost : warning.lost = 0) : warning = .indexAboveLimit := by
  induction level using level_induction with
  | step level ih =>
      rw [levelWarnings_eq_slots, List.mem_append, List.mem_append, List.mem_flatMap] at h
      rcases h with h | h | ⟨slot, hslot, h⟩
      · rw [List.mem_ite_nil_right, List.mem_singleton] at h
        exact h.2
      · exact absurd (hlost.symm.trans (lost_of_mem_entryWarnings h)) (by decide)
      · rw [slotWarnings] at h
        cases hown : ownMessages? (slotIn level) slot level with
        | none => exact ih slot hslot (by simpa [hown] using h)
        | some texts =>
            cases hbelow : entriesBelow (slotIn level) slot level with
            | nil => simp [hown, hbelow] at h
            | cons entry rest =>
                -- the entries below the messages are counted, and there is one at least
                obtain rfl : warning = slot.drop (rest.length + 1) := by
                  simpa [hown, hbelow] using h
                cases slot <;> exact absurd hlost (Nat.succ_ne_zero _)

/-- A level is lossless exactly when it has as many entries as its tree has leaves. -/
theorem lossless_iff_length_eq :
    Lossless level ↔ level.length = (expandLevel level).leaves.length := by
  have hzero : totalLost (levelWarnings level) = 0
      ↔ ∀ warning ∈ levelWarnings level, warning.lost = 0 := by
    induction levelWarnings level with
    | nil => simp
    | cons warning rest ih => simp [ih]
  have htold : Lossless level ↔ totalLost (levelWarnings level) = 0 := by
    rw [hzero]
    refine forall₂_congr fun warning hmem => ⟨?_, eq_indexAboveLimit hmem⟩
    rintro rfl
    rfl
  -- by conservation the losses are what the leaves fall short by
  have hconserved := length_eq_leaves_add_lost level
  rw [htold]
  omega

/-! ## One slot of a lossless level -/

/-- Messages that end at a slot of a lossless level are alone there. -/
theorem entriesAt_eq_singleton (h : Lossless level) (hslot : slot ∈ slots level)
    (hown : ownMessages? (slotIn level) slot level ≠ none) :
    ∃ entry, entriesAt (slotIn level) slot level = [entry] ∧ entry.ends = true := by
  obtain ⟨hentries, hslots⟩ := lossless_iff.mp h
  have hbelow := (hslots slot hslot).2 hown
  have hends : ∀ entry ∈ entriesAt (slotIn level) slot level, entry.ends = true := by
    intro entry hmem
    rw [← Entry.below?_eq_none_iff]
    exact List.filterMap_eq_nil_iff.mp hbelow entry hmem
  cases hat : entriesAt (slotIn level) slot level with
  | nil =>
      obtain ⟨entry, hmem, hentry⟩ := mem_slots.mp hslot
      exact absurd (hat ▸ mem_entriesAt.mpr ⟨hmem, hentry⟩) List.not_mem_nil
  | cons first rest =>
      rw [hat, List.forall_mem_cons] at hends
      cases rest with
      | nil => exact ⟨first, rfl, hends.1⟩
      | cons second more =>
          -- the second entry replaces the messages of the first one
          obtain ⟨before, tail, hsplit, -, hfirst, hrest⟩ := List.filter_eq_cons_iff.mp hat
          obtain ⟨between, after, rfl, -, hsecond, -⟩ := List.filter_eq_cons_iff.mp hrest
          have hlevel : level = (before ++ first :: between) ++ second :: after := by
            rw [hsplit, List.append_assoc, List.cons_append]
          have hwarned : entryWarnings (slotIn level) []
              ((before ++ first :: between) ++ second :: after) = [] := hlevel ▸ hentries
          obtain ⟨key, hkey, hfree⟩ := exists_slot_of_entryWarnings hwarned
          obtain rfl : slot = key := Option.some.inj ((of_decide_eq_true hsecond).symm.trans hkey)
          have hfirst' := ownMessages?_eq_none_iff.mp
            (hfree (hends.2 second List.mem_cons_self)) first
            (List.mem_append_right _ List.mem_cons_self) (of_decide_eq_true hfirst)
          exact absurd hends.1 (Bool.eq_false_iff.mp hfirst')

end ResourceQuery.ErrorTree
