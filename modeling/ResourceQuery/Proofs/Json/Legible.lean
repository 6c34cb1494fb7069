import ResourceQuery.Proofs.Json.Decoding
import ResourceQuery.Proofs.Json.Numeral

/-!
# Legible data values

When a value that was written can be read back: all its numbers are read as they are written, and
the fields of all its objects ascend (`Json.Legible`). `Json.depth` tells how deep a value is
nested, and `Json.induction` gives for a nested value the property of all that it holds one level
below. Objects with ascending fields stay as they are when they are read
(`Ascending.ofPairs_of_keys`). What a text can give has only such values in it
(`Json.Ordered.of_mem_items`, `Json.Ordered.of_mem_fields`).
-/

set_option autoImplicit false

namespace ResourceQuery

/-! ## Ascending pairs -/

namespace Ascending

variable {κ β : Type} [LT κ] [DecidableLT κ] [DecidableEq κ] [LE κ] [Std.IsLinearOrder κ]
  [Std.LawfulOrderLT κ]

/-- A key above all others comes last. -/
theorem insert_of_forall_lt {key : κ} {value : β} {map : List (κ × β)}
    (h : ∀ k ∈ map.map Prod.fst, k < key) : insert key value map = map ++ [(key, value)] := by
  induction map with
  | nil => rfl
  | cons pair rest ih =>
      obtain ⟨k, v⟩ := pair
      have hk : k < key := h k List.mem_cons_self
      have hrest : insert key value rest = rest ++ [(key, value)] :=
        ih fun k' hmem => h k' (List.mem_cons_of_mem _ hmem)
      have hnot : ¬ key < k := fun hlt => Std.lt_irrefl (Std.lt_trans hk hlt)
      have hne : key ≠ k := fun heq => Std.lt_irrefl (heq ▸ hk)
      rw [insert, if_neg hnot, if_neg hne, hrest]
      rfl

/-- Pairs whose keys ascend are a map as they are. -/
theorem ofPairs_of_keys {pairs : List (κ × β)} (h : Keys pairs) : ofPairs pairs = pairs := by
  -- each pair comes behind those before it
  have hall : ∀ map rest : List (κ × β), Keys (map ++ rest) →
      rest.foldl (fun map pair => insert pair.1 pair.2 map) map = map ++ rest := by
    intro map rest hkeys
    induction rest generalizing map with
    | nil => rw [List.foldl_nil, List.append_nil]
    | cons pair rest ih =>
        have hlast : ∀ k ∈ map.map Prod.fst, k < pair.1 := by
          intro k hk
          rw [Keys, List.map_append, List.pairwise_append] at hkeys
          exact hkeys.2.2 k hk pair.1 List.mem_cons_self
        rw [List.foldl_cons, insert_of_forall_lt hlast, ih, List.append_assoc]
        · rfl
        · rw [List.append_assoc]
          exact hkeys
  exact hall [] pairs h

end Ascending

namespace Json

/-! ## Depth and legibility -/

/-- What holds of scalars, of an array when it holds of its items, and of an object when it holds of
its field values, holds of all. -/
@[elab_as_elim]
theorem induction {motive : Json → Prop} (null : motive .null)
    (bool : ∀ value, motive (.bool value)) (number : ∀ value, motive (.number value))
    (string : ∀ value, motive (.string value))
    (array : ∀ items, (∀ item ∈ items, motive item) → motive (.array items))
    (object : ∀ fields, (∀ field ∈ fields, motive field.2) → motive (.object fields))
    (value : Json) : motive value := by
  refine @Json.rec motive (fun items => ∀ item ∈ items, motive item)
    (fun fields => ∀ field ∈ fields, motive field.2) (fun field => motive field.2)
    null bool number string array object (fun _ h => absurd h List.not_mem_nil) ?_
    (fun _ h => absurd h List.not_mem_nil) ?_ (fun _ _ h => h) value
  · intro head tail hhead htail
    exact List.forall_mem_cons.mpr ⟨hhead, htail⟩
  · intro head tail hhead htail
    exact List.forall_mem_cons.mpr ⟨hhead, htail⟩

mutual

/-- How deep arrays and objects are nested. -/
def depth : Json → Nat
  | .array items => itemsDepth items + 1
  | .object fields => fieldsDepth fields + 1
  | _ => 0

def itemsDepth : List Json → Nat
  | [] => 0
  | item :: rest => max item.depth (itemsDepth rest)

def fieldsDepth : List (String × Json) → Nat
  | [] => 0
  | (_, value) :: rest => max value.depth (fieldsDepth rest)

end

mutual

/-- All numbers are read as they are written, and the fields of all objects ascend. -/
def Legible : Json → Prop
  | .number value => value.ReadsBack
  | .array items => LegibleItems items
  | .object fields => Ascending.Keys fields ∧ LegibleFields fields
  | _ => True

def LegibleItems : List Json → Prop
  | [] => True
  | item :: rest => item.Legible ∧ LegibleItems rest

def LegibleFields : List (String × Json) → Prop
  | [] => True
  | (_, value) :: rest => value.Legible ∧ LegibleFields rest

end

theorem legibleItems_iff {items : List Json} :
    LegibleItems items ↔ ∀ item ∈ items, item.Legible := by
  induction items with
  | nil => simp [LegibleItems]
  | cons item rest ih => simp [LegibleItems, ih]

theorem legibleFields_iff {fields : List (String × Json)} :
    LegibleFields fields ↔ ∀ field ∈ fields, field.2.Legible := by
  induction fields with
  | nil => simp [LegibleFields]
  | cons field rest ih => simp [LegibleFields, ih]

/-! ## Values that a text can give -/

theorem orderedItems_iff {items : List Json} :
    OrderedItems items ↔ ∀ item ∈ items, item.Ordered := by
  induction items with
  | nil => simp [OrderedItems]
  | cons item rest ih => simp [OrderedItems, ih]

theorem orderedFields_iff {fields : List (String × Json)} :
    OrderedFields fields ↔ ∀ field ∈ fields, field.2.Ordered := by
  induction fields with
  | nil => simp [OrderedFields]
  | cons field rest ih => simp [OrderedFields, ih]

theorem Ordered.of_mem_items {items : List Json} (h : (Json.array items).Ordered) {item : Json}
    (hitem : item ∈ items) : item.Ordered :=
  orderedItems_iff.mp h item hitem

theorem Ordered.of_mem_fields {fields : List (String × Json)} (h : (Json.object fields).Ordered)
    {field : String × Json} (hfield : field ∈ fields) : field.2.Ordered :=
  orderedFields_iff.mp h.2 field hfield

end Json

end ResourceQuery
