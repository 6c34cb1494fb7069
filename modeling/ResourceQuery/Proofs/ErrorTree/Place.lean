import Mathlib.Logic.Relation
import ResourceQuery.Proofs.ErrorTree.Slot

/-!
# Following an entry down the levels

A `Place` is an entry with the entries before and after it on its level. An entry that goes on below
its slot has a place on the next level (`Place.Next`), unless messages end at that slot. There are
three ways not to be kept at a place: to have no slot, to be covered by messages that end at the
slot, and to be replaced by later messages that end there. An entry is shadowed when one of them
happens on some level that it reaches (`Place.Shadowed`). Main statements: every place comes to an
end (`Place.exists_last`), and different places of one level have different places on the next one
(`Place.Next.injective`).
-/

set_option autoImplicit false

namespace ResourceQuery.ErrorTree

/-- An entry among the entries of its level. -/
structure Place where
  before : List Entry
  entry : Entry
  after : List Entry

namespace Place

def level (place : Place) : List Entry := place.before ++ place.entry :: place.after

def slot? (place : Place) : Option Slot := slotIn place.level place.entry

/-- The level is a list, and the head of the entry is no index. -/
def HasNoSlot (place : Place) : Prop :=
  isListLevel place.level = true ∧ indexSlot place.entry = none

/-- The entry goes on below a slot at which some entry of the level ends. -/
def IsCovered (place : Place) : Prop :=
  place.entry.ends = false
    ∧ ∃ slot ∈ place.slot?, ∃ other ∈ place.level,
        other.ends = true ∧ slotIn place.level other = some slot

/-- The entry ends at a slot, and of the later entries that end there `winner` is the last. -/
def IsReplacedBy (place : Place) (winner : Entry) : Prop :=
  place.entry.ends = true
    ∧ ∃ slot ∈ place.slot?,
        ((entriesAt (slotIn place.level) slot place.after).filter Entry.ends).getLast?
          = some winner

/-- The same entry on the next level, among the entries that go on below its slot. -/
def Next (place next : Place) : Prop :=
  ¬ place.IsCovered
    ∧ ∃ slot ∈ place.slot?, place.entry.below? = some next.entry
        ∧ next.before = entriesBelow (slotIn place.level) slot place.before
        ∧ next.after = entriesBelow (slotIn place.level) slot place.after

/-- The same entry on this level or on one further down. -/
abbrev Reaches : Place → Place → Prop := Relation.ReflTransGen Next

/-- The entry of `later` is among those after the entry of `place`, on the same level. -/
def Before (place later : Place) : Prop :=
  ∃ between, later.before = place.before ++ place.entry :: between
    ∧ place.after = between ++ later.entry :: later.after

/-- The entry is not kept on this level. -/
def IsLost (place : Place) : Prop :=
  place.HasNoSlot ∨ place.IsCovered ∨ ∃ winner, place.IsReplacedBy winner

/-- The entry is not kept on some level that it reaches. -/
def Shadowed (place : Place) : Prop := ∃ reached, place.Reaches reached ∧ reached.IsLost

variable {place next : Place}

/-! ## One level -/

theorem entry_mem_level (place : Place) : place.entry ∈ place.level :=
  List.mem_append_right _ List.mem_cons_self

theorem hasNoSlot_iff : place.HasNoSlot ↔ place.slot? = none := by
  cases h : isListLevel place.level with
  | true => simp [HasNoSlot, slot?, slotIn_list h, h]
  | false => simp [HasNoSlot, slot?, slotIn_map h, h]

theorem Next.goes_on (h : Next place next) : place.entry.ends = false := by
  obtain ⟨-, slot, -, hbelow, -, -⟩ := h
  cases hends : place.entry.ends with
  | false => rfl
  | true => rw [Entry.below?_eq_none_iff.mpr hends] at hbelow; cases hbelow

/-- The entries of the next level are those that go on below the slot. -/
theorem Next.level_eq (h : Next place next) {slot : Slot} (hslot : place.slot? = some slot) :
    next.level = entriesBelow (slotIn place.level) slot place.level := by
  obtain ⟨-, slot', hslot', hbelow, hbefore, hafter⟩ := h
  rw [hslot, Option.mem_some_iff] at hslot'
  subst hslot'
  calc next.level
      = entriesBelow (slotIn place.level) slot place.before
          ++ next.entry :: entriesBelow (slotIn place.level) slot place.after := by
        rw [level, hbefore, hafter]
    _ = entriesBelow (slotIn place.level) slot place.before
          ++ entriesBelow (slotIn place.level) slot (place.entry :: place.after) := by
        rw [entriesBelow_cons_of_goes_on hslot hbelow]
    _ = entriesBelow (slotIn place.level) slot place.level := (entriesBelow_append _ _).symm

theorem Next.unique {next' : Place} (h : Next place next) (h' : Next place next') :
    next = next' := by
  obtain ⟨-, slot, hslot, hbelow, hbefore, hafter⟩ := h
  obtain ⟨-, slot', hslot', hbelow', hbefore', hafter'⟩ := h'
  obtain rfl : slot = slot' := Option.mem_unique hslot hslot'
  obtain ⟨before, entry, after⟩ := next
  obtain ⟨before', entry', after'⟩ := next'
  rw [Place.mk.injEq]
  exact ⟨hbefore.trans hbefore'.symm, Option.some.inj (hbelow.symm.trans hbelow'),
    hafter.trans hafter'.symm⟩

/-- An entry with a slot that is not covered ends there or has a next level. -/
theorem exists_next {slot : Slot} (hslot : place.slot? = some slot) (hcover : ¬ place.IsCovered)
    (hends : place.entry.ends = false) : ∃ next, Next place next := by
  cases hbelow : place.entry.below? with
  | none => rw [Entry.below?_eq_none_iff.mp hbelow] at hends; cases hends
  | some below => exact ⟨⟨_, below, _⟩, hcover, slot, hslot, hbelow, rfl, rfl⟩

/-- An entry that has a next level is kept on this one. -/
theorem Next.not_isLost (h : Next place next) : ¬ place.IsLost := by
  have hends := h.goes_on
  obtain ⟨hcover, slot, hslot, -, -, -⟩ := h
  rintro (hnone | hcovered | ⟨winner, hended, -⟩)
  · rw [hasNoSlot_iff.mp hnone] at hslot
    cases hslot
  · exact hcover hcovered
  · rw [hends] at hended
    cases hended

/-! ## All levels -/

/-- Being shadowed is decided on the level itself or on the next one. -/
theorem Next.shadowed_iff (h : Next place next) : place.Shadowed ↔ next.Shadowed := by
  constructor
  · rintro ⟨reached, hreach, hlost⟩
    rcases Relation.ReflTransGen.cases_head hreach with rfl | ⟨next', hnext', hreach'⟩
    · exact absurd hlost h.not_isLost
    · obtain rfl := h.unique hnext'
      exact ⟨reached, hreach', hlost⟩
  · rintro ⟨reached, hreach, hlost⟩
    exact ⟨reached, Relation.ReflTransGen.head h hreach, hlost⟩

theorem IsLost.shadowed (h : place.IsLost) : place.Shadowed :=
  ⟨place, Relation.ReflTransGen.refl, h⟩

/-- The messages stay the same on the way down. -/
theorem Reaches.messages_eq {reached : Place} (h : place.Reaches reached) :
    reached.entry.messages = place.entry.messages := by
  induction h with
  | refl => rfl
  | tail _ hnext ih =>
      obtain ⟨-, slot, -, hbelow, -, -⟩ := hnext
      rw [← (Entry.below?_eq_some_iff.mp hbelow).2, ih]

/-- Every entry has a last level: it is lost there, or it ends there at a slot. -/
theorem exists_last (place : Place) :
    ∃ reached, place.Reaches reached
      ∧ (reached.IsLost ∨ reached.entry.ends = true ∧ ∃ slot, reached.slot? = some slot) := by
  -- the path has one segment less on the next level
  induction hn : place.entry.path.tail.length generalizing place with
  | zero =>
      have hends : place.entry.ends = true := by
        rw [Entry.ends, List.isEmpty_iff_length_eq_zero]
        exact hn
      refine ⟨place, Relation.ReflTransGen.refl, ?_⟩
      cases hslot : place.slot? with
      | none => exact .inl (.inl (hasNoSlot_iff.mpr hslot))
      | some slot => exact .inr ⟨hends, slot, rfl⟩
  | succ n ih =>
      by_cases hlost : place.IsLost
      · exact ⟨place, Relation.ReflTransGen.refl, .inl hlost⟩
      have hends : place.entry.ends = false := by
        rw [Entry.ends, List.isEmpty_eq_false_iff, ← List.length_pos_iff]
        omega
      have hcover : ¬ place.IsCovered := fun h => hlost (.inr (.inl h))
      cases hslot : place.slot? with
      | none => exact absurd (.inl (hasNoSlot_iff.mpr hslot)) hlost
      | some slot =>
          obtain ⟨next, hnext⟩ := exists_next hslot hcover hends
          have htail : next.entry.path.tail.length = n := by
            obtain ⟨-, slot, -, hbelow, -, -⟩ := hnext
            have hsegments := congrArg List.length (Entry.below?_eq_some_iff.mp hbelow).1
            rw [Path.segments, List.length_cons] at hsegments
            omega
          obtain ⟨reached, hreach, hfate⟩ := ih next htail
          exact ⟨reached, Relation.ReflTransGen.head hnext hreach, hfate⟩

/-! ## Places of one level -/

/-- Two places of one level are the same, or one is before the other. -/
theorem eq_or_before_or_before {place' : Place} (h : place.level = place'.level) :
    place = place' ∨ place.Before place' ∨ place'.Before place := by
  -- with as many entries in front it is the same place
  have hsame : ∀ {p q : Place}, q.before = p.before ++ [] →
      p.entry :: p.after = q.entry :: q.after → p = q := by
    rintro ⟨before, entry, after⟩ ⟨before', entry', after'⟩ hbefore htail
    obtain ⟨rfl, rfl⟩ := List.cons.inj htail
    rw [List.append_nil] at hbefore
    rw [Place.mk.injEq]
    exact ⟨hbefore.symm, rfl, rfl⟩
  -- with more in front it is further back
  have hbetween : ∀ {p q : Place} {first : Entry} {rest : List Entry},
      q.before = p.before ++ first :: rest →
      p.entry :: p.after = first :: rest ++ q.entry :: q.after → p.Before q := by
    intro p q first rest hbefore htail
    obtain ⟨rfl, hafter⟩ := List.cons.inj htail
    exact ⟨rest, hbefore, hafter⟩
  rcases List.append_eq_append_iff.mp h with ⟨mid, hmid, htail⟩ | ⟨mid, hmid, htail⟩
  · cases mid with
    | nil => exact .inl (hsame hmid htail)
    | cons first rest => exact .inr (.inl (hbetween hmid htail))
  · cases mid with
    | nil => exact .inl (hsame hmid htail).symm
    | cons first rest => exact .inr (.inr (hbetween hmid htail))

theorem Before.entry_mem_after {later : Place} (h : place.Before later) :
    later.entry ∈ place.after := by
  obtain ⟨between, -, hafter⟩ := h
  rw [hafter]
  exact List.mem_append_right _ List.mem_cons_self

theorem Before.length_lt {later : Place} (h : place.Before later) :
    place.before.length < later.before.length := by
  obtain ⟨between, hbefore, -⟩ := h
  rw [hbefore, List.length_append, List.length_cons]
  omega

/-- Two entries that go on below one slot and have one place on the next level are the same. -/
theorem Next.injective {place' : Place} {slot : Slot} (hlevel : place.level = place'.level)
    (hslot : place.slot? = some slot) (hslot' : place'.slot? = some slot)
    (h : Next place next) (h' : Next place' next) : place = place' := by
  -- what is before the later one on the next level has the earlier one in it
  have hnot : ∀ {p q : Place}, p.level = q.level → p.slot? = some slot → q.slot? = some slot →
      Next p next → Next q next → ¬ p.Before q := by
    rintro p q hpq hp hq ⟨-, s, hs, hbelow, hbefore, -⟩ ⟨-, s', hs', -, hbefore', -⟩
      ⟨between, hbetween, -⟩
    obtain rfl : slot = s := Option.mem_unique hp hs
    obtain rfl : slot = s' := Option.mem_unique hq hs'
    have hentry : slotIn q.level p.entry = some slot := hpq ▸ hp
    rw [hbetween, entriesBelow_append, ← hpq, ← hbefore, List.self_eq_append_right, hpq,
      entriesBelow_cons_of_goes_on hentry hbelow] at hbefore'
    cases hbefore'
  rcases eq_or_before_or_before hlevel with heq | hbefore | hbefore
  · exact heq
  · exact absurd hbefore (hnot hlevel hslot hslot' h h')
  · exact absurd hbefore (hnot hlevel.symm hslot' hslot h' h)

end Place

end ResourceQuery.ErrorTree
