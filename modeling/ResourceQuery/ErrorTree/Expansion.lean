import ResourceQuery.ErrorTree
import ResourceQuery.Text.Quoted

/-!
# Expanding flat errors

Validation errors arrive flat, one row of messages for each dotted path. `expand` gives them the
shape of the data. The entries that reach a level are grouped by slot: the level is a list when
one of its heads is an index and none is above `maxListIndex`, and a map otherwise. Messages that
end at a slot take precedence over entries that go on below it, and of several that end at one
slot the last counts. Whatever is not kept is told in `warnings`.
-/

set_option autoImplicit false

namespace ResourceQuery

/-- Flat validation errors: messages by dotted path, in ascending order of the paths. -/
structure FlatErrors where
  entries : List (String × List String)
  ascending : Ascending.Keys entries

namespace FlatErrors

def empty : FlatErrors := ⟨[], List.Pairwise.nil⟩

/-- Messages for one more path, in place of those it had. -/
def insert (path : String) (messages : List String) (errors : FlatErrors) : FlatErrors :=
  ⟨Ascending.insert path messages errors.entries, Ascending.insert_ascending errors.ascending⟩

/-- The errors of some paths, of which a later one replaces an equal earlier one. -/
def ofList (entries : List (String × List String)) : FlatErrors :=
  entries.foldl (fun errors entry => errors.insert entry.1 entry.2) empty

end FlatErrors

namespace ErrorTree

/-- What is left of a flat error at some level: the path from there on, and the messages. -/
structure Entry where
  path : Path
  messages : List String
  deriving DecidableEq, Repr

/-- An entry ends at a level when its path has one segment left. -/
def Entry.ends (entry : Entry) : Bool := entry.path.tail.isEmpty

/-- An entry as the next level sees it, if it goes on. -/
def Entry.below? (entry : Entry) : Option Entry :=
  entry.path.below?.map (⟨·, entry.messages⟩)

/-- Something that expansion left out, or a level that it kept a map. -/
inductive Warning
  /-- An index above `maxListIndex` keeps a level a map. -/
  | indexAboveLimit
  /-- A head that is no index has no place in a list. -/
  | nonIndexKey (head : String)
  /-- Messages replaced those of another spelling of the same slot. -/
  | overwrites (path : String) (replaced : Nat)
  /-- Entries below an index that has messages of its own. -/
  | droppedBelowIndex (count : Nat) (index : Nat)
  /-- Entries below a field that has messages of its own. -/
  | droppedBelowField (count : Nat) (field : String)
  deriving DecidableEq, Repr

def Warning.text : Warning → String
  | .indexAboveLimit =>
    "Keeping errors keyed by index as a map: index above " ++ toString maxListIndex
  | .nonIndexKey head => "Dropping non-index key '" ++ head ++ "' in list of errors"
  | .overwrites path replaced =>
    "Key '" ++ path ++ "' overwrites " ++ toString replaced ++ " message(s) of an equivalent key"
  | .droppedBelowIndex count index =>
    "Dropping " ++ toString count ++ " nested error path(s) under " ++ toString index
      ++ ", which has its own messages"
  | .droppedBelowField count field =>
    "Dropping " ++ toString count ++ " nested error path(s) under " ++ Text.quote field
      ++ ", which has its own messages"

/-! ## One level -/

def headIndices (entries : List Entry) : List Nat :=
  entries.filterMap fun entry => Path.index? entry.path.head

/-- Some head is an index that is too large for a list. -/
def exceedsLimit (entries : List Entry) : Bool := (headIndices entries).any (· > maxListIndex)

/-- A level is a list when some head is an index and none is too large. -/
def isListLevel (entries : List Entry) : Bool :=
  !(headIndices entries).isEmpty && !exceedsLimit entries

def indexSlot (entry : Entry) : Option Nat := Path.index? entry.path.head

def nameSlot (entry : Entry) : Option String := some entry.path.head

section Slots

variable {κ : Type} [LT κ] [DecidableLT κ] [DecidableEq κ]

/-- The slots of a level, ascending. -/
def slotsOf (slot : Entry → Option κ) (entries : List Entry) : List κ :=
  Ascending.setOf (entries.filterMap slot)

/-- The entries of a level at one slot. -/
def entriesAt (slot : Entry → Option κ) (key : κ) (entries : List Entry) : List Entry :=
  entries.filter fun entry => slot entry = some key

/-- The messages that end at a slot: those of its last entry that ends there. -/
def ownMessages? (slot : Entry → Option κ) (key : κ) (entries : List Entry) :
    Option (List String) :=
  ((entriesAt slot key entries).filter Entry.ends).getLast?.map (·.messages)

/-- The entries that go on below a slot, as the next level sees them. -/
def entriesBelow (slot : Entry → Option κ) (key : κ) (entries : List Entry) : List Entry :=
  (entriesAt slot key entries).filterMap Entry.below?

/-- The warnings about the entries of a level one by one, where `earlier` are the entries before
them: heads without a slot, and messages that replace others. -/
def entryWarnings (slot : Entry → Option κ) (earlier : List Entry) : List Entry → List Warning
  | [] => []
  | entry :: rest =>
    let now :=
      match slot entry with
      | none => [.nonIndexKey entry.path.head]
      | some key =>
        -- Only what ends at a slot can take the place of messages there.
        if entry.ends then
          match ownMessages? slot key earlier with
          | some replaced => [.overwrites entry.path.head replaced.length]
          | none => []
        else []
    now ++ entryWarnings slot (earlier ++ [entry]) rest

end Slots

/-! ## All levels -/

/-- The weight of a row of entries: all segments of all paths. -/
def weight : List Entry → Nat
  | [] => 0
  | entry :: rest => entry.path.tail.length + 1 + weight rest

/-- An entry that goes on is lighter by one segment. -/
theorem weight_filterMap_below (entry : Entry) (rest : List Entry) :
    weight ((entry :: rest).filterMap Entry.below?)
      ≤ entry.path.tail.length + weight (rest.filterMap Entry.below?) := by
  obtain ⟨⟨head, tail⟩, messages⟩ := entry
  cases tail with
  | nil =>
    have hnone : Entry.below? ⟨⟨head, []⟩, messages⟩ = none := rfl
    rw [List.filterMap_cons, hnone]
    simp
  | cons next more =>
    have hsome : Entry.below? ⟨⟨head, next :: more⟩, messages⟩ = some ⟨⟨next, more⟩, messages⟩ :=
      rfl
    rw [List.filterMap_cons, hsome]
    simp [weight]

/-- Going below a slot makes a level lighter. -/
theorem weight_entriesBelow {κ : Type} [DecidableEq κ] (slot : Entry → Option κ) (key : κ)
    (entries : List Entry) (h : entries ≠ []) :
    weight (entriesBelow slot key entries) < weight entries := by
  -- an entry is lighter by its first segment, or is left out with all its segments
  have hle : ∀ l : List Entry, weight (entriesBelow slot key l) + l.length ≤ weight l := by
    intro l
    induction l with
    | nil => simp [weight, entriesBelow, entriesAt]
    | cons entry rest ih =>
      have hcons : weight (entry :: rest) = entry.path.tail.length + 1 + weight rest := by
        simp [weight]
      have hlen : (entry :: rest).length = rest.length + 1 := List.length_cons
      by_cases hs : slot entry = some key
      · have hfilter : entriesBelow slot key (entry :: rest)
            = (entry :: entriesAt slot key rest).filterMap Entry.below? := by
          simp [entriesBelow, entriesAt, hs]
        have hstep := weight_filterMap_below entry (entriesAt slot key rest)
        rw [← hfilter] at hstep
        have hrest : entriesBelow slot key rest
            = (entriesAt slot key rest).filterMap Entry.below? := rfl
        rw [← hrest] at hstep
        omega
      · have hfilter : entriesBelow slot key (entry :: rest) = entriesBelow slot key rest := by
          simp [entriesBelow, entriesAt, hs]
        rw [hfilter]
        omega
  have hpos : 0 < entries.length := List.length_pos_iff.mpr h
  have := hle entries
  omega

theorem ne_nil_of_mem_slotsOf {κ : Type} [LT κ] [DecidableLT κ] [DecidableEq κ]
    {slot : Entry → Option κ} {key : κ} {entries : List Entry}
    (h : key ∈ slotsOf slot entries) : entries ≠ [] := by
  rintro rfl
  simp [slotsOf, Ascending.setOf] at h

/-- The tree of a level: at each slot its own messages, or else the level below it. -/
def expandLevel (entries : List Entry) : ErrorTree :=
  -- Where messages end at a slot, there is no level below it.
  if isListLevel entries then
    .list <| (slotsOf indexSlot entries).attach.map fun ⟨index, _⟩ =>
      (index, match ownMessages? indexSlot index entries with
        | some texts => .messages texts
        | none => expandLevel (entriesBelow indexSlot index entries))
  else
    .map <| (slotsOf nameSlot entries).attach.map fun ⟨name, _⟩ =>
      (name, match ownMessages? nameSlot name entries with
        | some texts => .messages texts
        | none => expandLevel (entriesBelow nameSlot name entries))
termination_by weight entries
decreasing_by
  all_goals exact weight_entriesBelow _ _ _ (ne_nil_of_mem_slotsOf (by assumption))

/-- What expansion has to tell about a level and the levels below it: first about the level as a
whole, then about its entries one by one, then slot by slot. -/
def levelWarnings (entries : List Entry) : List Warning :=
  (if exceedsLimit entries then [.indexAboveLimit] else []) ++
  if isListLevel entries then
    entryWarnings indexSlot [] entries ++
      (slotsOf indexSlot entries).attach.flatMap fun ⟨index, _⟩ =>
        let below := entriesBelow indexSlot index entries
        if (ownMessages? indexSlot index entries).isNone then levelWarnings below
        else if below.isEmpty then []
        else [.droppedBelowIndex below.length index]
  else
    entryWarnings nameSlot [] entries ++
      (slotsOf nameSlot entries).attach.flatMap fun ⟨name, _⟩ =>
        let below := entriesBelow nameSlot name entries
        if (ownMessages? nameSlot name entries).isNone then levelWarnings below
        else if below.isEmpty then []
        else [.droppedBelowField below.length name]
termination_by weight entries
decreasing_by
  all_goals exact weight_entriesBelow _ _ _ (ne_nil_of_mem_slotsOf (by assumption))

def entriesOf (errors : FlatErrors) : List Entry :=
  errors.entries.map fun entry => ⟨Path.ofText entry.1, entry.2⟩

def expand (errors : FlatErrors) : ErrorTree := expandLevel (entriesOf errors)

/-- What expanding flat errors leaves out. -/
def warnings (errors : FlatErrors) : List Warning := levelWarnings (entriesOf errors)

end ErrorTree

end ResourceQuery
