import Mathlib.Algebra.BigOperators.Group.Finset.Piecewise
import Mathlib.Algebra.GroupWithZero.Nat
import Mathlib.Data.Finset.Card
import ResourceQuery.Proofs.Ascending
import ResourceQuery.Proofs.ErrorTree.Slot

/-!
# No flat error is lost without a warning

Every entry of a level has no slot, ends at its slot, or goes on below it. The warnings about single
entries account for those without a slot and for all but one of those that end at the same slot
(`totalLost_entryWarnings`). Those that go on are dropped with their number told, or they are the
entries of a level below. So entries are conserved on every level (`length_level`). Main statement:
by induction on the weight of a level, they are in the whole expansion
(`length_eq_leaves_add_lost`).
-/

set_option autoImplicit false

namespace ResourceQuery.ErrorTree

/-! ## Leaves -/

mutual

/-- The messages of all leaves, in the order of the tree. -/
def leaves : ErrorTree → List (List String)
  | .messages texts => [texts]
  | .list items => itemLeaves items
  | .map fields => fieldLeaves fields

def itemLeaves : List (Nat × ErrorTree) → List (List String)
  | [] => []
  | (_, tree) :: rest => tree.leaves ++ itemLeaves rest

def fieldLeaves : List (String × ErrorTree) → List (List String)
  | [] => []
  | (_, tree) :: rest => tree.leaves ++ fieldLeaves rest

end

theorem itemLeaves_eq_flatMap (items : List (Nat × ErrorTree)) :
    itemLeaves items = items.flatMap fun item => item.2.leaves := by
  induction items with
  | nil => rfl
  | cons item rest ih => rw [itemLeaves, ih, List.flatMap_cons]

theorem fieldLeaves_eq_flatMap (fields : List (String × ErrorTree)) :
    fieldLeaves fields = fields.flatMap fun field => field.2.leaves := by
  induction fields with
  | nil => rfl
  | cons field rest ih => rw [fieldLeaves, ih, List.flatMap_cons]

/-! ## What warnings account for -/

namespace Warning

/-- The number of entries whose loss a warning tells. -/
def lost : Warning → Nat
  | .indexAboveLimit => 0
  | .nonIndexKey _ => 1
  | .overwrites _ _ => 1
  | .droppedBelowIndex count _ => count
  | .droppedBelowField count _ => count

def totalLost (warnings : List Warning) : Nat := (warnings.map lost).sum

@[simp] theorem totalLost_nil : totalLost [] = 0 := rfl

@[simp] theorem totalLost_cons (warning : Warning) (rest : List Warning) :
    totalLost (warning :: rest) = warning.lost + totalLost rest := List.sum_cons

@[simp] theorem totalLost_append (front back : List Warning) :
    totalLost (front ++ back) = totalLost front + totalLost back := by
  rw [totalLost, List.map_append, List.sum_append, ← totalLost, ← totalLost]

theorem totalLost_flatMap {κ : Type} (keys : List κ) (f : κ → List Warning) :
    totalLost (keys.flatMap f) = (keys.map fun key => totalLost (f key)).sum := by
  induction keys with
  | nil => rfl
  | cons key rest ih => rw [List.flatMap_cons, totalLost_append, ih, List.map_cons, List.sum_cons]

end Warning

open Warning

section Level

variable {κ : Type} [DecidableEq κ] {slot : Entry → Option κ}

/-! ## Entries that end -/

/-- The slots at which entries end. -/
def endedSlots (slot : Entry → Option κ) (entries : List Entry) : Finset κ :=
  ((entries.filter Entry.ends).filterMap slot).toFinset

theorem mem_endedSlots {key : κ} {entries : List Entry} :
    key ∈ endedSlots slot entries ↔ (ownMessages? slot key entries).isSome = true := by
  simp only [endedSlots, List.mem_toFinset, List.mem_filterMap, List.mem_filter]
  rw [ownMessages?, Option.isSome_map, List.getLast?_isSome]
  constructor
  · rintro ⟨entry, ⟨hmem, hends⟩, hslot⟩
    exact List.ne_nil_of_mem (List.mem_filter.mpr ⟨mem_entriesAt.mpr ⟨hmem, hslot⟩, hends⟩)
  · intro h
    obtain ⟨entry, hentry⟩ := List.exists_mem_of_ne_nil _ h
    obtain ⟨hat, hends⟩ := List.mem_filter.mp hentry
    obtain ⟨hmem, hslot⟩ := mem_entriesAt.mp hat
    exact ⟨entry, ⟨hmem, hends⟩, hslot⟩

section Snoc

variable {entries : List Entry} {entry : Entry}

theorem endedSlots_snoc_of_none (hslot : slot entry = none) :
    endedSlots slot (entries ++ [entry]) = endedSlots slot entries := by
  cases hends : entry.ends with
  | true => simp [endedSlots, hends, hslot]
  | false => simp [endedSlots, hends]

theorem endedSlots_snoc_of_goes_on (hends : entry.ends = false) :
    endedSlots slot (entries ++ [entry]) = endedSlots slot entries := by
  simp [endedSlots, hends]

theorem endedSlots_snoc_of_ends {key : κ} (hslot : slot entry = some key)
    (hends : entry.ends = true) :
    endedSlots slot (entries ++ [entry]) = insert key (endedSlots slot entries) := by
  simp [endedSlots, hends, hslot]

end Snoc

/-- The warnings about single entries tell the loss of every entry without a slot, and of every
entry that ends at a slot where one ended before. -/
theorem totalLost_entryWarnings (earlier rest : List Entry) :
    totalLost (entryWarnings slot earlier rest) + (endedSlots slot (earlier ++ rest)).card
      = (endedSlots slot earlier).card + rest.countP (fun entry => (slot entry).isNone)
        + rest.countP (fun entry => (slot entry).isSome && entry.ends) := by
  -- the slots that ended so far grow by one where nothing is told, and stay where a loss is told
  induction rest generalizing earlier with
  | nil => simp [entryWarnings]
  | cons entry rest ih =>
      have hnext := ih (earlier ++ [entry])
      rw [List.append_assoc, List.singleton_append] at hnext
      rw [entryWarnings, totalLost_append, List.countP_cons, List.countP_cons]
      cases hslot : slot entry with
      | none =>
          rw [endedSlots_snoc_of_none hslot] at hnext
          simp [lost]
          omega
      | some key =>
          cases hends : entry.ends with
          | false =>
              rw [endedSlots_snoc_of_goes_on hends] at hnext
              simp
              omega
          | true =>
              rw [endedSlots_snoc_of_ends hslot hends] at hnext
              cases hown : ownMessages? slot key earlier with
              | none =>
                  have hnew : key ∉ endedSlots slot earlier := by simp [mem_endedSlots, hown]
                  rw [Finset.card_insert_of_notMem hnew] at hnext
                  simp [hown]
                  omega
              | some replaced =>
                  have hold : key ∈ endedSlots slot earlier := by simp [mem_endedSlots, hown]
                  rw [Finset.insert_eq_of_mem hold] at hnext
                  simp [lost, hown]
                  omega

/-! ## Entries that go on -/

theorem length_entriesBelow_cons (key : κ) (entry : Entry) (rest : List Entry) :
    (entriesBelow slot key (entry :: rest)).length
      = (if slot entry = some key ∧ entry.ends = false then 1 else 0)
        + (entriesBelow slot key rest).length := by
  by_cases hgoes : slot entry = some key ∧ entry.ends = false
  · cases hbelow : entry.below? with
    | none => exact absurd (Entry.below?_eq_none_iff.mp hbelow) (Bool.eq_false_iff.mp hgoes.2)
    | some below =>
        rw [if_pos hgoes, entriesBelow_cons_of_goes_on hgoes.1 hbelow, List.length_cons]
        exact Nat.add_comm ..
  · have hends : slot entry = some key → entry.ends = true := by
      intro hslot
      cases hended : entry.ends with
      | true => rfl
      | false => exact absurd ⟨hslot, hended⟩ hgoes
    rw [if_neg hgoes, entriesBelow_cons_of_not hends, Nat.zero_add]

/-- The entries that go on, slot by slot. -/
theorem sum_length_entriesBelow {keys : Finset κ} {level : List Entry}
    (h : ∀ entry ∈ level, ∀ key, slot entry = some key → key ∈ keys) :
    ∑ key ∈ keys, (entriesBelow slot key level).length
      = level.countP (fun entry => (slot entry).isSome && !entry.ends) := by
  induction level with
  | nil => simp [entriesBelow, entriesAt]
  | cons entry rest ih =>
      have hrest := ih fun entry' hmem => h entry' (List.mem_cons_of_mem _ hmem)
      -- the first entry is counted at its own slot only
      have hhead : ∑ key ∈ keys, (if slot entry = some key ∧ entry.ends = false then 1 else 0)
          = if (slot entry).isSome && !entry.ends then 1 else 0 := by
        cases hslot : slot entry with
        | none => simp
        | some key =>
            have hkey : key ∈ keys := h entry List.mem_cons_self key hslot
            cases hends : entry.ends with
            | true => simp
            | false => simp [hkey]
      simp only [length_entriesBelow_cons, Finset.sum_add_distrib, hrest, hhead, List.countP_cons]
      omega

/-! ## One level -/

omit [DecidableEq κ] in
/-- An entry has no slot, ends at its slot, or goes on below it. -/
theorem length_eq_countP (level : List Entry) :
    level.length = level.countP (fun entry => (slot entry).isNone)
      + level.countP (fun entry => (slot entry).isSome && entry.ends)
      + level.countP (fun entry => (slot entry).isSome && !entry.ends) := by
  induction level with
  | nil => rfl
  | cons entry rest ih =>
      rw [List.length_cons, List.countP_cons, List.countP_cons, List.countP_cons]
      cases hslot : slot entry with
      | none => simp; omega
      | some key => cases hends : entry.ends <;> simp <;> omega

/-- **Conservation on one level.** When the leaves and the losses at each slot are as many as the
entries that go on below it, and one more if messages end there, the leaves and the losses of the
level are as many as its entries. -/
theorem length_level [LT κ] [DecidableLT κ] {level : List Entry} {kept lost : κ → Nat}
    (hnodup : (slotsOf slot level).Nodup)
    (h : ∀ key ∈ slotsOf slot level, kept key + lost key
      = (entriesBelow slot key level).length
        + if (ownMessages? slot key level).isSome then 1 else 0) :
    level.length = ((slotsOf slot level).map kept).sum
      + (totalLost (entryWarnings slot [] level) + ((slotsOf slot level).map lost).sum) := by
  have hmem : ∀ {entry key}, entry ∈ level → slot entry = some key →
      key ∈ (slotsOf slot level).toFinset := by
    intro entry key hentry hslot
    rw [List.mem_toFinset, mem_slotsOf]
    exact List.ne_nil_of_mem (mem_entriesAt.mpr ⟨hentry, hslot⟩)
  -- messages end at a slot just when it is one of the ended slots, so each of those counts once
  have hended : ∑ key ∈ (slotsOf slot level).toFinset,
      (if (ownMessages? slot key level).isSome then 1 else 0) = (endedSlots slot level).card := by
    have hfilter : (slotsOf slot level).toFinset.filter
        (fun key => (ownMessages? slot key level).isSome = true) = endedSlots slot level := by
      ext key
      rw [Finset.mem_filter, ← mem_endedSlots, and_iff_right_iff_imp]
      intro hkey
      rw [endedSlots, List.mem_toFinset, List.mem_filterMap] at hkey
      obtain ⟨entry, hentry, hslot⟩ := hkey
      exact hmem (List.mem_of_mem_filter hentry) hslot
    rw [← hfilter, Finset.card_filter]
  have hslots : ((slotsOf slot level).map kept).sum + ((slotsOf slot level).map lost).sum
      = level.countP (fun entry => (slot entry).isSome && !entry.ends)
        + (endedSlots slot level).card := by
    rw [← List.sum_toFinset _ hnodup, ← List.sum_toFinset _ hnodup, ← Finset.sum_add_distrib,
      Finset.sum_congr rfl fun key hkey => h key (List.mem_toFinset.mp hkey),
      Finset.sum_add_distrib, hended,
      sum_length_entriesBelow fun entry hentry key hslot => hmem hentry hslot]
  -- the three kinds of entries add up to the level
  have hentries := @totalLost_entryWarnings κ _ slot [] level
  have hempty : (endedSlots slot []).card = 0 := rfl
  have hall := @length_eq_countP κ slot level
  rw [List.nil_append] at hentries
  omega

/-- What is told about the entries that go on below a slot: the warnings of the level below, or how
many entries were dropped. -/
def slotWarnings (slot : Entry → Option κ) (drop : Nat → κ → Warning) (key : κ)
    (level : List Entry) : List Warning :=
  let below := entriesBelow slot key level
  if (ownMessages? slot key level).isNone then levelWarnings below
  else if below.isEmpty then []
  else [drop below.length key]

/-- Leaves and losses at one slot, when entries are conserved below it. -/
theorem length_slot {drop : Nat → κ → Warning} (hdrop : ∀ count key, (drop count key).lost = count)
    {key : κ} {level : List Entry}
    (h : (entriesBelow slot key level).length
      = (expandLevel (entriesBelow slot key level)).leaves.length
        + totalLost (levelWarnings (entriesBelow slot key level))) :
    (subtree slot key level).leaves.length + totalLost (slotWarnings slot drop key level)
      = (entriesBelow slot key level).length
        + if (ownMessages? slot key level).isSome then 1 else 0 := by
  cases hown : ownMessages? slot key level with
  | none => simp [subtree, slotWarnings, hown, ← h]
  | some texts =>
      cases hbelow : entriesBelow slot key level with
      | nil => simp [subtree, slotWarnings, hown, hbelow, leaves]
      | cons entry rest =>
          -- one leaf stands for the messages, and the warning tells how many entries go on
          simp [subtree, slotWarnings, hown, hbelow, leaves, hdrop]
          omega

theorem nodup_slotsOf [LT κ] [DecidableLT κ] [LE κ] [Std.IsLinearOrder κ] [Std.LawfulOrderLT κ]
    (slot : Entry → Option κ) (level : List Entry) : (slotsOf slot level).Nodup :=
  Ascending.nodup_of_ascending (Ascending.setOf_ascending _)

end Level

/-! ## All levels -/

theorem leaves_expandLevel (level : List Entry) :
    (expandLevel level).leaves
      = if isListLevel level then
          (slotsOf indexSlot level).flatMap fun index => (subtree indexSlot index level).leaves
        else (slotsOf nameSlot level).flatMap fun name => (subtree nameSlot name level).leaves := by
  rw [expandLevel_eq]
  cases isListLevel level with
  | true =>
      show itemLeaves _ = _
      rw [itemLeaves_eq_flatMap, List.flatMap_map]
      rfl
  | false =>
      show fieldLeaves _ = _
      rw [fieldLeaves_eq_flatMap, List.flatMap_map]
      rfl

theorem levelWarnings_eq (level : List Entry) :
    levelWarnings level
      = (if exceedsLimit level then [.indexAboveLimit] else []) ++
        if isListLevel level then
          entryWarnings indexSlot [] level ++ (slotsOf indexSlot level).flatMap fun index =>
            slotWarnings indexSlot .droppedBelowIndex index level
        else
          entryWarnings nameSlot [] level ++ (slotsOf nameSlot level).flatMap fun name =>
            slotWarnings nameSlot .droppedBelowField name level := by
  have hunattach : ∀ {κ : Type} (keys : List κ) (f : κ → List Warning),
      (keys.attach.flatMap fun key => f key.1) = keys.flatMap f := by
    intro κ keys f
    rw [List.flatMap_subtype fun _ _ => rfl, List.unattach_attach]
  rw [levelWarnings, ← hunattach (slotsOf indexSlot level), ← hunattach (slotsOf nameSlot level)]
  rfl

/-- **Conservation.** Every entry of a level is a leaf of its tree, or its loss is told. -/
theorem length_eq_leaves_add_lost (level : List Entry) :
    level.length = (expandLevel level).leaves.length + totalLost (levelWarnings level) := by
  -- the entries below a slot weigh less than the entries of the level
  induction hw : weight level using Nat.strongRecOn generalizing level with
  | ind n ih =>
      have hlimit : totalLost (if exceedsLimit level then [.indexAboveLimit] else []) = 0 := by
        cases exceedsLimit level <;> rfl
      rw [leaves_expandLevel, levelWarnings_eq, totalLost_append, hlimit, Nat.zero_add]
      cases isListLevel level with
      | true =>
          simp only [if_true, List.length_flatMap, totalLost_append, totalLost_flatMap]
          refine length_level (nodup_slotsOf _ _) fun index hindex => ?_
          have hlighter := weight_entriesBelow indexSlot index level (ne_nil_of_mem_slotsOf hindex)
          exact length_slot (fun _ _ => rfl) (ih _ (hw ▸ hlighter) _ rfl)
      | false =>
          simp only [Bool.false_eq_true, if_false, List.length_flatMap, totalLost_append,
            totalLost_flatMap]
          refine length_level (nodup_slotsOf _ _) fun name hname => ?_
          have hlighter := weight_entriesBelow nameSlot name level (ne_nil_of_mem_slotsOf hname)
          exact length_slot (fun _ _ => rfl) (ih _ (hw ▸ hlighter) _ rfl)

end ResourceQuery.ErrorTree
