import Mathlib.Data.List.Forall2
import ResourceQuery.Json.Decoding

/-!
# When decoding succeeds

Each reader of data values is described by the values that it gives: a step-by-step reader succeeds
when every step does, a row when every item does, and a part that may be absent when its value does
if there is one. `Ascending.get?_ofPairs` finds a field in an object that was written in ascending
order.
-/

set_option autoImplicit false

namespace ResourceQuery

/-! ## Fields -/

namespace Ascending

variable {κ β : Type} [LT κ] [DecidableLT κ] [DecidableEq κ]

omit [LT κ] [DecidableLT κ] in
theorem get?_append (key : κ) (xs ys : List (κ × β)) :
    get? key (xs ++ ys) = (get? key xs).or (get? key ys) := by
  induction xs with
  | nil => rfl
  | cons pair rest ih =>
      obtain ⟨k, v⟩ := pair
      by_cases hk : k = key
      · simp [get?, hk]
      · simp [get?, hk, ih]

/-- In a map of pairs each key has the value of its last pair. -/
theorem get?_ofPairs (key : κ) (pairs : List (κ × β)) :
    get? key (ofPairs pairs) = get? key pairs.reverse := by
  have hfold : ∀ map : List (κ × β),
      get? key (pairs.foldl (fun map pair => insert pair.1 pair.2 map) map)
        = (get? key pairs.reverse).or (get? key map) := by
    induction pairs with
    | nil => intro map; rfl
    | cons pair rest ih =>
        intro map
        obtain ⟨k, v⟩ := pair
        rw [List.foldl_cons, ih, get?_insert, List.reverse_cons, get?_append]
        by_cases hk : key = k
        · simp [get?, hk]
        · simp [get?, hk, Ne.symm hk]
  rw [ofPairs, hfold, get?_nil, Option.or_none]

omit [LT κ] [DecidableLT κ] in
theorem mem_of_get? {key : κ} {value : β} {map : List (κ × β)} (h : get? key map = some value) :
    (key, value) ∈ map := by
  induction map with
  | nil => cases h
  | cons pair rest ih =>
      obtain ⟨k, v⟩ := pair
      rw [get?] at h
      split at h
      · rename_i hkey
        cases hkey
        cases h
        exact List.mem_cons_self
      · exact List.mem_cons_of_mem _ (ih h)

omit [LT κ] [DecidableLT κ] in
theorem get?_of_mem {key : κ} {value : β} {map : List (κ × β)} (hnodup : (map.map Prod.fst).Nodup)
    (h : (key, value) ∈ map) : get? key map = some value := by
  induction map with
  | nil => exact absurd h List.not_mem_nil
  | cons pair rest ih =>
      obtain ⟨k, v⟩ := pair
      obtain ⟨hnew, hrest⟩ := List.nodup_cons.mp hnodup
      rcases List.mem_cons.mp h with heq | hmem
      · cases heq
        rw [get?, if_pos rfl]
      · have hne : k ≠ key := fun heq =>
          hnew (List.mem_map.mpr ⟨(key, value), hmem, heq.symm⟩)
        rw [get?, if_neg hne, ih hrest hmem]

end Ascending

/-! ## Steps -/

section Steps

variable {ε α β : Type}

theorem bind_eq_ok_iff {x : Except ε α} {f : α → Except ε β} {b : β} :
    (x >>= f) = .ok b ↔ ∃ a, x = .ok a ∧ f a = .ok b := by
  cases x with
  | error e => simp [bind, Except.bind]
  | ok a => simp [bind, Except.bind]

theorem bind_eq_error_iff {x : Except ε α} {f : α → Except ε β} {e : ε} :
    (x >>= f) = .error e ↔ x = .error e ∨ ∃ a, x = .ok a ∧ f a = .error e := by
  cases x with
  | error e => simp [bind, Except.bind]
  | ok a => simp [bind, Except.bind]

theorem map_eq_ok_iff {x : Except ε α} {f : α → β} {b : β} :
    (f <$> x) = .ok b ↔ ∃ a, x = .ok a ∧ f a = b := by
  cases x with
  | error e => simp [Functor.map, Except.map]
  | ok a => simp [Functor.map, Except.map]

theorem map_eq_error_iff {x : Except ε α} {f : α → β} {e : ε} :
    (f <$> x) = .error e ↔ x = .error e := by
  cases x with
  | error e => simp [Functor.map, Except.map]
  | ok a => simp [Functor.map, Except.map]

theorem pure_eq_ok_iff {a b : α} : (pure a : Except ε α) = .ok b ↔ a = b := by
  simp [pure, Except.pure]

theorem pure_ne_error {a : α} {e : ε} : (pure a : Except ε α) ≠ .error e := by
  simp [pure, Except.pure]

end Steps

/-! ## Rows -/

section Rows

variable {α β : Type}

/-- A relation between rows depends on the items of the left row only. -/
theorem forall₂_congr_of_mem {R S : α → β → Prop} {xs : List α} {ys : List β}
    (h : ∀ x ∈ xs, ∀ y, R x y ↔ S x y) : List.Forall₂ R xs ys ↔ List.Forall₂ S xs ys := by
  induction xs generalizing ys with
  | nil => simp
  | cons x xs ih =>
      rw [List.forall₂_cons_left_iff, List.forall₂_cons_left_iff]
      refine exists_congr fun y => exists_congr fun rest => ?_
      rw [h x List.mem_cons_self y, ih fun x' hx' => h x' (List.mem_cons_of_mem _ hx')]

/-- Rows whose items are equal where a property holds. -/
theorem forall₂_eq_and_iff {p : α → Prop} {xs ys : List α} :
    List.Forall₂ (fun x y => y = x ∧ p x) xs ys ↔ ys = xs ∧ ∀ x ∈ xs, p x := by
  induction xs generalizing ys with
  | nil => simp
  | cons x xs ih =>
      rw [List.forall₂_cons_left_iff]
      simp only [ih]
      constructor
      · rintro ⟨y, rest, ⟨rfl, hx⟩, ⟨rfl, hxs⟩, rfl⟩
        exact ⟨rfl, List.forall_mem_cons.mpr ⟨hx, hxs⟩⟩
      · rintro ⟨rfl, h⟩
        obtain ⟨hx, hxs⟩ := List.forall_mem_cons.mp h
        exact ⟨x, xs, ⟨rfl, hx⟩, ⟨rfl, hxs⟩, rfl⟩

/-- A left row is related to some row when each of its items is related to something. -/
theorem exists_forall₂_iff {R : α → β → Prop} {xs : List α} :
    (∃ ys, List.Forall₂ R xs ys) ↔ ∀ x ∈ xs, ∃ y, R x y := by
  induction xs with
  | nil => simp
  | cons x xs ih =>
      rw [List.forall_mem_cons, ← ih]
      simp only [List.forall₂_cons_left_iff]
      constructor
      · rintro ⟨_, y, rest, hy, hrest, rfl⟩
        exact ⟨⟨y, hy⟩, rest, hrest⟩
      · rintro ⟨⟨y, hy⟩, rest, hrest⟩
        exact ⟨y :: rest, y, rest, hy, hrest, rfl⟩

/-- An item of the right row is related to one of the left row. -/
theorem exists_mem_of_forall₂ {R : α → β → Prop} {xs : List α} {ys : List β}
    (h : List.Forall₂ R xs ys) {y : β} (hy : y ∈ ys) : ∃ x ∈ xs, R x y := by
  induction h with
  | nil => exact absurd hy List.not_mem_nil
  | @cons x y' xs ys hxy _ ih =>
      rcases List.mem_cons.mp hy with rfl | hmem
      · exact ⟨x, List.mem_cons_self, hxy⟩
      · obtain ⟨x', hx, hrel⟩ := ih hmem
        exact ⟨x', List.mem_cons_of_mem _ hx, hrel⟩

end Rows

namespace Json

variable {α : Type} {decode : Json → Decoded α}

theorem decodeString_eq_ok_iff {value : Json} {text : String} :
    decodeString value = .ok text ↔ value = .string text := by
  cases value <;> simp [decodeString]

theorem decodeEach_eq_ok_iff {items : List Json} {values : List α} :
    decodeEach decode items = .ok values
      ↔ List.Forall₂ (fun item value => decode item = .ok value) items values := by
  induction items generalizing values with
  | nil => simp [decodeEach, eq_comm]
  | cons item rest ih =>
      simp only [decodeEach, bind_eq_ok_iff, pure_eq_ok_iff, List.forall₂_cons_left_iff, ih]
      constructor
      · rintro ⟨value, hvalue, more, hmore, rfl⟩
        exact ⟨value, more, hvalue, hmore, rfl⟩
      · rintro ⟨value, more, hvalue, hmore, rfl⟩
        exact ⟨value, hvalue, more, hmore, rfl⟩

theorem decodeList_eq_ok_iff {value : Json} {values : List α} :
    decodeList decode value = .ok values
      ↔ ∃ items, value = .array items
        ∧ List.Forall₂ (fun item value => decode item = .ok value) items values := by
  cases value <;> simp [decodeList, decodeEach_eq_ok_iff]

/-- A thing is read from its name, alone or as the only field of an object with null. -/
theorem decodeName_eq_ok_iff {choices : List α} {name : α → String} {value : Json} {choice : α} :
    decodeName choices name value = .ok choice
      ↔ ∃ text, (value = .string text ∨ value = .object [(text, .null)])
        ∧ choices.find? (name · = text) = some choice := by
  have hpick : ∀ text choice, decodeName.pick choices name text = .ok choice
      ↔ choices.find? (name · = text) = some choice := by
    intro text choice
    rw [decodeName.pick]
    cases choices.find? (name · = text) with
    | none => simp
    | some found => simp
  cases value with
  | string text => simp [decodeName, hpick]
  | object fields =>
      match fields with
      | [] => simp [decodeName]
      | _ :: _ :: _ => simp [decodeName]
      | [(text, content)] =>
          rw [decodeName, bind_eq_ok_iff]
          simp only [hpick]
          cases content with
          | null => simp [pure_eq_ok_iff]
          | _ => simp [throw, throwThe, MonadExceptOf.throw]
  | _ => simp [decodeName]

/-- The field of an object that was written with an optional value reads as what the value reads
as, if there is one. -/
theorem decodeField?_eq_ok_iff {σ : Type} {encode : σ → Json} {name : String}
    {fields : List (String × Json)} {part : Option σ} {back : Option α}
    (h : Ascending.get? name fields = part.map encode) :
    decodeField? name decode fields = .ok back
      ↔ Option.Rel (fun value value' => decode (encode value) = .ok value') part back := by
  unfold decodeField?
  rw [h]
  cases part with
  | none =>
      constructor
      · rintro ⟨⟩
        exact .none
      · rintro ⟨⟩
        rfl
  | some value =>
      simp only [Option.map_some, map_eq_ok_iff]
      constructor
      · rintro ⟨value', hvalue, rfl⟩
        exact .some hvalue
      · rintro ⟨hvalue⟩
        exact ⟨_, hvalue, rfl⟩

theorem decodeOption_of_ne_null {value : Json} (h : value ≠ .null) :
    decodeOption decode value = some <$> decode value := by
  cases value <;> simp_all [decodeOption]

/-- The same where null stands for an absent value, if no value is written as null. -/
theorem decodePart_eq_ok_iff {σ : Type} {encode : σ → Json} {name : String}
    {fields : List (String × Json)} {part : Option σ} {back : Option α}
    (hencode : ∀ value, encode value ≠ .null)
    (h : Ascending.get? name fields = part.map encode) :
    decodePart name decode fields = .ok back
      ↔ Option.Rel (fun value value' => decode (encode value) = .ok value') part back := by
  unfold decodePart
  rw [map_eq_ok_iff]
  simp only [decodeField?_eq_ok_iff h, decodeOption_of_ne_null (hencode _), map_eq_ok_iff]
  constructor
  · -- null and an absent field are both no value
    rintro ⟨_, ⟨value, hvalue, rfl⟩ | _, rfl⟩
    · exact .some hvalue
    · exact .none
  · rintro (hvalue | _)
    · exact ⟨_, .some ⟨_, hvalue, rfl⟩, rfl⟩
    · exact ⟨none, .none, rfl⟩

/-! ### Where decoded values come from -/

theorem exists_of_decodeList {value : Json} {values : List α}
    (h : decodeList decode value = .ok values) {part : α} (hpart : part ∈ values) :
    ∃ items, value = .array items ∧ ∃ item ∈ items, decode item = .ok part := by
  obtain ⟨items, rfl, hrows⟩ := decodeList_eq_ok_iff.mp h
  exact ⟨items, rfl, exists_mem_of_forall₂ hrows hpart⟩

theorem exists_of_decodeField? {name : String} {fields : List (String × Json)} {part : α}
    (h : decodeField? name decode fields = .ok (some part)) :
    ∃ value, (name, value) ∈ fields ∧ decode value = .ok part := by
  unfold decodeField? at h
  cases hget : Ascending.get? name fields with
  | none =>
      rw [hget] at h
      cases h
  | some value =>
      rw [hget] at h
      obtain ⟨part', hpart, hsome⟩ := map_eq_ok_iff.mp h
      cases hsome
      exact ⟨value, Ascending.mem_of_get? hget, hpart⟩

theorem decode_of_decodeOption {value : Json} {part : α}
    (h : decodeOption decode value = .ok (some part)) : decode value = .ok part := by
  have hne : value ≠ .null := by
    rintro rfl
    cases h
  rw [decodeOption_of_ne_null hne] at h
  obtain ⟨part', hpart, hsome⟩ := map_eq_ok_iff.mp h
  cases hsome
  exact hpart

theorem exists_of_decodePart {name : String} {fields : List (String × Json)} {part : α}
    (h : decodePart name decode fields = .ok (some part)) :
    ∃ value, (name, value) ∈ fields ∧ decode value = .ok part := by
  obtain ⟨found, hfound, hjoin⟩ := map_eq_ok_iff.mp h
  obtain rfl : found = some (some part) := by
    rcases found with _ | _ | found
    · cases hjoin
    · cases hjoin
    · cases hjoin
      rfl
  obtain ⟨value, hmem, hvalue⟩ := exists_of_decodeField? hfound
  exact ⟨value, hmem, decode_of_decodeOption hvalue⟩

end Json

/-- Optional values whose related values are equal where a property holds. -/
theorem optionRel_eq_and_iff {α : Type} {R : α → α → Prop} {p : α → Prop} {x y : Option α}
    (h : ∀ a ∈ x, ∀ b, R a b ↔ b = a ∧ p a) : Option.Rel R x y ↔ y = x ∧ ∀ a ∈ x, p a := by
  constructor
  · rintro (hab | _)
    · obtain ⟨rfl, hp⟩ := (h _ rfl _).mp hab
      exact ⟨rfl, fun a ha => by cases ha; exact hp⟩
    · exact ⟨rfl, fun a ha => nomatch ha⟩
  · rintro ⟨rfl, hp⟩
    cases y with
    | none => exact .none
    | some a => exact .some ((h a rfl a).mpr ⟨rfl, hp a rfl⟩)

end ResourceQuery
