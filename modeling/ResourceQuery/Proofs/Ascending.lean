import ResourceQuery.Ascending

/-!
# Ascending maps as rows of pairs

What a map of given pairs looks like as a row: its keys ascend (`ofPairs_ascending`), it has none
but the given pairs (`mem_of_mem_ofPairs`), and all of them if their keys are distinct
(`ofPairs_perm`).
A map is determined by the pairs that it has (`eq_of_perm`), and a set by its members
(`eq_of_mem_iff`).
-/

set_option autoImplicit false

namespace ResourceQuery.Ascending

variable {κ β : Type} [LT κ]

section Insert

variable [DecidableLT κ] [DecidableEq κ]

theorem mem_insert {pair : κ × β} {key : κ} {value : β} {map : List (κ × β)}
    (h : pair ∈ insert key value map) : pair = (key, value) ∨ pair ∈ map := by
  induction map with
  | nil => exact .inl (List.mem_singleton.mp h)
  | cons head rest ih =>
      obtain ⟨k, v⟩ := head
      rw [insert] at h
      split at h
      · exact List.mem_cons.mp h
      · split at h
        · exact (List.mem_cons.mp h).imp_right (List.mem_cons_of_mem _)
        · rcases List.mem_cons.mp h with rfl | hmem
          · exact .inr List.mem_cons_self
          · exact (ih hmem).imp_right (List.mem_cons_of_mem _)

/-- A map of pairs has no others. -/
theorem mem_of_mem_ofPairs {pair : κ × β} {pairs : List (κ × β)} (h : pair ∈ ofPairs pairs) :
    pair ∈ pairs := by
  have hfold : ∀ rest map : List (κ × β),
      pair ∈ rest.foldl (fun map pair => insert pair.1 pair.2 map) map →
        pair ∈ map ∨ pair ∈ rest := by
    intro rest
    induction rest with
    | nil => exact fun map hmem => .inl hmem
    | cons next rest ih =>
        intro map hmem
        rcases ih _ hmem with hinsert | hrest
        · rcases mem_insert hinsert with rfl | hmap
          · exact .inr List.mem_cons_self
          · exact .inl hmap
        · exact .inr (List.mem_cons_of_mem _ hrest)
  exact (hfold pairs [] h).resolve_left List.not_mem_nil

theorem insert_perm {key : κ} {value : β} {map : List (κ × β)} (h : key ∉ map.map Prod.fst) :
    (insert key value map).Perm ((key, value) :: map) := by
  induction map with
  | nil => exact List.Perm.refl _
  | cons pair rest ih =>
      obtain ⟨k, v⟩ := pair
      rw [List.map_cons, List.mem_cons, not_or] at h
      by_cases hlt : key < k
      · rw [insert, if_pos hlt]
      · rw [insert, if_neg hlt, if_neg h.1]
        exact ((ih h.2).cons _).trans (List.Perm.swap ..)

/-- Pairs with distinct keys are all in their map. -/
theorem ofPairs_perm {pairs : List (κ × β)} (h : (pairs.map Prod.fst).Nodup) :
    (ofPairs pairs).Perm pairs := by
  -- no key comes twice, so nothing is replaced on the way
  have hfold : ∀ rest map : List (κ × β), ((map ++ rest).map Prod.fst).Nodup →
      (rest.foldl (fun map pair => insert pair.1 pair.2 map) map).Perm (map ++ rest) := by
    intro rest
    induction rest with
    | nil =>
        intro map _
        rw [List.append_nil]
        exact List.Perm.refl _
    | cons pair rest ih =>
        intro map hnodup
        have hmoved : (map ++ pair :: rest).Perm (pair :: map ++ rest) := List.perm_middle
        have hnodup' := (hmoved.map Prod.fst).nodup_iff.mp hnodup
        rw [List.cons_append, List.map_cons, List.nodup_cons, List.map_append,
          List.mem_append, not_or] at hnodup'
        have hinsert : (insert pair.1 pair.2 map).Perm (pair :: map) := insert_perm hnodup'.1.1
        have hall := (hinsert.append_right rest).trans hmoved.symm
        exact (ih _ ((hall.map Prod.fst).nodup_iff.mpr hnodup)).trans hall
  exact hfold pairs [] h

end Insert

variable [LE κ] [Std.IsLinearOrder κ] [Std.LawfulOrderLT κ]

omit [Std.IsLinearOrder κ] in
theorem nodup_of_ascending {keys : List κ} (h : keys.Pairwise (· < ·)) : keys.Nodup := by
  refine List.Pairwise.imp ?_ h
  rintro key key' hlt rfl
  exact Std.lt_irrefl hlt

theorem ofPairs_ascending [DecidableLT κ] [DecidableEq κ] (pairs : List (κ × β)) :
    Keys (ofPairs pairs) := by
  have hfold : ∀ rest map : List (κ × β), Keys map →
      Keys (rest.foldl (fun map pair => insert pair.1 pair.2 map) map) := by
    intro rest
    induction rest with
    | nil => exact fun _ hmap => hmap
    | cons pair rest ih => exact fun map hmap => ih _ (insert_ascending hmap)
  exact hfold pairs [] List.Pairwise.nil

/-- Two maps with the same pairs are the same. -/
theorem eq_of_perm {map map' : List (κ × β)} (h : Keys map) (h' : Keys map')
    (hperm : map.Perm map') : map = map' :=
  hperm.eq_of_pairwise (fun _ _ _ _ hlt hgt => absurd hgt (Std.not_lt.mpr (Std.le_of_lt hlt)))
    (List.pairwise_map.mp h) (List.pairwise_map.mp h')

theorem eq_of_mem_pairs_iff {map map' : List (κ × β)} (h : Keys map) (h' : Keys map')
    (hmem : ∀ pair, pair ∈ map ↔ pair ∈ map') : map = map' := by
  have hnodup : ∀ {pairs : List (κ × β)}, Keys pairs → pairs.Nodup := fun hkeys =>
    List.Pairwise.of_map Prod.fst (fun _ _ hne heq => hne (congrArg Prod.fst heq))
      (nodup_of_ascending hkeys)
  exact eq_of_perm h h' ((List.perm_ext_iff_of_nodup (hnodup h) (hnodup h')).mpr hmem)

/-- Two sets with the same members are the same. -/
theorem eq_of_mem_iff [DecidableEq κ] {keys keys' : List κ} (h : keys.Pairwise (· < ·))
    (h' : keys'.Pairwise (· < ·)) (hmem : ∀ key, key ∈ keys ↔ key ∈ keys') : keys = keys' :=
  List.Perm.eq_of_pairwise
    (fun _ _ _ _ hlt hgt => absurd hgt (Std.not_lt.mpr (Std.le_of_lt hlt))) h h'
    ((List.perm_ext_iff_of_nodup (nodup_of_ascending h) (nodup_of_ascending h')).mpr hmem)

end ResourceQuery.Ascending
