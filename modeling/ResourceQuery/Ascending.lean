/-!
# Ascending lists

Maps are kept as lists of pairs with strictly ascending keys, so that two maps with the same
entries are the same list, and sets as strictly ascending lists. Text keys ascend by code point,
which is also the order of their UTF-8 bytes. Main statements: inserting keeps the order
(`insert_ascending`, `insertKey_ascending`) and changes the value at one key only (`get?_insert`).
-/

set_option autoImplicit false

namespace ResourceQuery.Ascending

variable {κ β : Type} [LT κ] [DecidableLT κ] [DecidableEq κ]

/-! ## Maps -/

def get? (key : κ) : List (κ × β) → Option β
  | [] => none
  | (k, v) :: rest => if k = key then some v else get? key rest

/-- The map with a value at a key, in place of the value that was there. -/
def insert (key : κ) (value : β) : List (κ × β) → List (κ × β)
  | [] => [(key, value)]
  | (k, v) :: rest =>
    if key < k then (key, value) :: (k, v) :: rest
    else if key = k then (key, value) :: rest
    else (k, v) :: insert key value rest

/-- The map of the given pairs, in which a later pair replaces an earlier one with its key. -/
def ofPairs (pairs : List (κ × β)) : List (κ × β) :=
  pairs.foldl (fun map pair => insert pair.1 pair.2 map) []

/-- The keys of a list of pairs ascend strictly. -/
def Keys (map : List (κ × β)) : Prop := (map.map Prod.fst).Pairwise (· < ·)

/-! ## Sets -/

def insertKey (key : κ) : List κ → List κ
  | [] => [key]
  | k :: rest =>
    if key < k then key :: k :: rest else if key = k then k :: rest else k :: insertKey key rest

def setOf (keys : List κ) : List κ := keys.foldr insertKey []

/-! ## The order is kept -/

omit [LT κ] [DecidableLT κ] in
@[simp] theorem get?_nil (key : κ) : get? key ([] : List (κ × β)) = none := rfl

theorem mem_keys_insert {key k : κ} {value : β} {map : List (κ × β)} :
    k ∈ (insert key value map).map Prod.fst ↔ k = key ∨ k ∈ map.map Prod.fst := by
  induction map with
  | nil => simp [insert]
  | cons pair rest ih =>
    obtain ⟨k', v⟩ := pair
    by_cases hlt : key < k'
    · simp [insert, hlt]
    · by_cases heq : key = k'
      · subst heq
        simp [insert, hlt]
      · simp only [insert, hlt, heq, if_false, List.map_cons, List.mem_cons, ih]
        exact or_left_comm

theorem mem_insertKey {key k : κ} {keys : List κ} :
    k ∈ insertKey key keys ↔ k = key ∨ k ∈ keys := by
  induction keys with
  | nil => simp [insertKey]
  | cons k' rest ih =>
    by_cases hlt : key < k'
    · simp [insertKey, hlt]
    · by_cases heq : key = k'
      · subst heq
        simp [insertKey, hlt]
      · simp only [insertKey, hlt, heq, if_false, List.mem_cons, ih]
        exact or_left_comm

theorem mem_setOf {k : κ} {keys : List κ} : k ∈ setOf keys ↔ k ∈ keys := by
  induction keys with
  | nil => simp [setOf]
  | cons key rest ih =>
    show k ∈ insertKey key (setOf rest) ↔ _
    rw [mem_insertKey, ih, List.mem_cons]

omit [LT κ] [DecidableLT κ] in
theorem get?_eq_none {key : κ} {map : List (κ × β)} (h : key ∉ map.map Prod.fst) :
    get? key map = none := by
  induction map with
  | nil => rfl
  | cons pair rest ih =>
    obtain ⟨k, v⟩ := pair
    simp only [List.map_cons, List.mem_cons, not_or] at h
    simp [get?, Ne.symm h.1, ih h.2]

/-- Inserting sets the value at its key and no other. -/
theorem get?_insert {key k : κ} {value : β} {map : List (κ × β)} :
    get? k (insert key value map) = if k = key then some value else get? k map := by
  induction map with
  | nil =>
    by_cases h : k = key
    · simp [insert, get?, h]
    · simp [insert, get?, h, Ne.symm h]
  | cons pair rest ih =>
    obtain ⟨k', v⟩ := pair
    by_cases hk : k = key
    · subst hk
      by_cases hlt : k < k'
      · simp [insert, hlt, get?]
      · by_cases heq : k = k'
        · subst heq
          simp [insert, hlt, get?]
        · simp [insert, hlt, heq, get?, Ne.symm heq, ih]
    · by_cases hlt : key < k'
      · simp [insert, hlt, get?, hk, Ne.symm hk]
      · by_cases heq : key = k'
        · subst heq
          simp [insert, hlt, get?, hk, Ne.symm hk]
        · simp [insert, hlt, heq, get?, hk, ih]

section Order

variable [LE κ] [Std.IsLinearOrder κ] [Std.LawfulOrderLT κ]

omit [DecidableLT κ] [DecidableEq κ] in
theorem lt_of_not_lt_of_ne {a b : κ} (hlt : ¬ a < b) (hne : a ≠ b) : b < a :=
  Std.lt_of_le_of_ne (Std.not_lt.mp hlt) (Ne.symm hne)

theorem insert_ascending {key : κ} {value : β} {map : List (κ × β)} (h : Keys map) :
    Keys (insert key value map) := by
  induction map with
  | nil => simp [insert, Keys]
  | cons pair rest ih =>
    obtain ⟨k, v⟩ := pair
    have hrest : Keys rest := (List.pairwise_cons.mp h).2
    have hk : ∀ k' ∈ rest.map Prod.fst, k < k' := (List.pairwise_cons.mp h).1
    -- the new key goes in front of the head, in its place, or behind it
    by_cases hlt : key < k
    · simp only [insert, hlt, if_true]
      refine List.pairwise_cons.mpr ⟨?_, h⟩
      intro k' hk'
      rcases List.mem_cons.mp hk' with rfl | hmem
      · exact hlt
      · exact Std.lt_trans hlt (hk k' hmem)
    · by_cases heq : key = k
      · subst heq
        simp only [insert, hlt, if_false, if_true]
        exact List.pairwise_cons.mpr ⟨hk, hrest⟩
      · simp only [insert, hlt, heq, if_false]
        refine List.pairwise_cons.mpr ⟨?_, ih hrest⟩
        intro k' hk'
        rcases mem_keys_insert.mp hk' with rfl | hmem
        · exact lt_of_not_lt_of_ne hlt heq
        · exact hk k' hmem

theorem insertKey_ascending {key : κ} {keys : List κ} (h : keys.Pairwise (· < ·)) :
    (insertKey key keys).Pairwise (· < ·) := by
  induction keys with
  | nil => simp [insertKey]
  | cons k rest ih =>
    have hrest := (List.pairwise_cons.mp h).2
    have hk := (List.pairwise_cons.mp h).1
    by_cases hlt : key < k
    · simp only [insertKey, hlt, if_true]
      refine List.pairwise_cons.mpr ⟨?_, h⟩
      intro k' hk'
      rcases List.mem_cons.mp hk' with rfl | hmem
      · exact hlt
      · exact Std.lt_trans hlt (hk k' hmem)
    · by_cases heq : key = k
      · subst heq
        simpa only [insertKey, hlt, if_false, if_true] using h
      · simp only [insertKey, hlt, heq, if_false]
        refine List.pairwise_cons.mpr ⟨?_, ih hrest⟩
        intro k' hk'
        rcases mem_insertKey.mp hk' with rfl | hmem
        · exact lt_of_not_lt_of_ne hlt heq
        · exact hk k' hmem

theorem setOf_ascending (keys : List κ) : (setOf keys).Pairwise (· < ·) := by
  induction keys with
  | nil => simp [setOf]
  | cons key rest ih => exact insertKey_ascending ih

end Order

end ResourceQuery.Ascending
