import ResourceQuery.Proofs.Ascending
import ResourceQuery.Proofs.Json.Legible

/-!
# Places in data values

A step leads from an array to an item or from an object to a field, and a row of steps to a place
further down (`Json.follow?`). `Json.scalars` lists the scalars of a value with the steps that lead
to them. Main statements: the list has each place with a scalar (`Json.mem_scalars_iff`), in the
order of the steps (`Json.pairwise_scalars`).
-/

set_option autoImplicit false

namespace ResourceQuery.Json

/-! ## Steps -/

/-- A step down: to an item of an array, or to a field of an object. -/
inductive Step
  | item (index : Nat)
  | field (name : String)
  deriving DecidableEq

/-- The value one step further down. -/
def child? : Json → Step → Option Json
  | .array items, .item index => items[index]?
  | .object fields, .field name => Ascending.get? name fields
  | _, _ => none

def follow? (value : Json) : List Step → Option Json
  | [] => some value
  | step :: rest => (value.child? step).bind (·.follow? rest)

theorem follow?_cons_eq_some_iff {value found : Json} {step : Step} {rest : List Step} :
    value.follow? (step :: rest) = some found
      ↔ ∃ child, value.child? step = some child ∧ child.follow? rest = some found := by
  rw [follow?, Option.bind_eq_some_iff]

/-- Items come by their indices, and fields by their names. -/
def Step.Before : Step → Step → Prop
  | .item index, .item index' => index < index'
  | .field name, .field name' => name < name'
  | _, _ => False

theorem Step.Before.irrefl (step : Step) : ¬ step.Before step := by
  cases step with
  | item index => exact Nat.lt_irrefl index
  | field name => exact Std.lt_irrefl

/-- Places in the order in which a value is read. -/
def Earlier (steps steps' : List Step) : Prop := List.Lex Step.Before steps steps'

theorem Earlier.ne {steps steps' : List Step} (h : Earlier steps steps') : steps ≠ steps' := by
  rintro rfl
  exact List.lex_irrefl Step.Before.irrefl steps h

/-! ## Children -/

/-- What an array or an object has one step further down, in its order. -/
def children : Json → List (Step × Json)
  | .array items => items.zipIdx.map fun item => (.item item.2, item.1)
  | .object fields => fields.map fun field => (.field field.1, field.2)
  | _ => []

/-- A value that has no others in it. -/
def IsScalar : Json → Prop
  | .array _ => False
  | .object _ => False
  | _ => True

variable {value : Json}

theorem Ordered.of_mem_children (h : value.Ordered) {child : Step × Json}
    (hchild : child ∈ value.children) : child.2.Ordered := by
  cases value with
  | array items =>
      obtain ⟨item, hitem, rfl⟩ := List.mem_map.mp hchild
      exact h.of_mem_items (List.fst_mem_of_mem_zipIdx hitem)
  | object fields =>
      obtain ⟨field, hfield, rfl⟩ := List.mem_map.mp hchild
      exact h.of_mem_fields hfield
  | _ => exact absurd hchild List.not_mem_nil

theorem child?_eq_some_iff (h : value.Ordered) {step : Step} {child : Json} :
    value.child? step = some child ↔ (step, child) ∈ value.children := by
  cases value with
  | array items =>
      cases step with
      | item index => simp [child?, children, List.mk_mem_zipIdx_iff_getElem?]
      | field name => simp [child?, children]
  | object fields =>
      have hnodup := Ascending.nodup_of_ascending h.1
      cases step with
      | item index => simp [child?, children]
      | field name =>
          have hmem : (Step.field name, child) ∈ (object fields).children
              ↔ (name, child) ∈ fields := by
            simp [children]
          rw [hmem]
          exact ⟨Ascending.mem_of_get?, Ascending.get?_of_mem hnodup⟩
  | _ => simp [child?, children]

/-- The children of a value are in the order of their steps. -/
theorem pairwise_children (h : value.Ordered) :
    value.children.Pairwise fun child child' => child.1.Before child'.1 := by
  cases value with
  | array items =>
      have hindices : (items.zipIdx.map Prod.snd).Pairwise (· < ·) := by
        rw [List.zipIdx_map_snd]
        exact List.pairwise_lt_range'
      have hitems : items.zipIdx.Pairwise fun item item' => item.2 < item'.2 :=
        List.pairwise_map.mp hindices
      exact List.pairwise_map.mpr hitems
  | object fields =>
      have hfields : fields.Pairwise fun field field' => field.1 < field'.1 :=
        List.pairwise_map.mp h.1
      exact List.pairwise_map.mpr hfields
  | _ => exact List.Pairwise.nil

/-! ## Scalars -/

/-- A scalar, and the steps that lead to it. -/
structure Leaf where
  steps : List Step
  value : Json

/-- A scalar of a value as a scalar of the value around it. -/
def Leaf.under (step : Step) (leaf : Leaf) : Leaf := ⟨step :: leaf.steps, leaf.value⟩

mutual

/-- The scalars of a value. -/
def scalars : Json → List Leaf
  | .array items => itemScalars 0 items
  | .object fields => fieldScalars fields
  | scalar => [⟨[], scalar⟩]

def itemScalars (index : Nat) : List Json → List Leaf
  | [] => []
  | item :: rest => item.scalars.map (Leaf.under (.item index)) ++ itemScalars (index + 1) rest

def fieldScalars : List (String × Json) → List Leaf
  | [] => []
  | (name, value) :: rest => value.scalars.map (Leaf.under (.field name)) ++ fieldScalars rest

end

theorem scalars_of_isScalar (h : value.IsScalar) : value.scalars = [⟨[], value⟩] := by
  cases value with
  | array items => cases h
  | object fields => cases h
  | _ => rw [scalars] <;> nofun

/-- An array or an object has the scalars of its children. -/
theorem scalars_eq_flatMap (h : ¬ value.IsScalar) :
    value.scalars
      = value.children.flatMap fun child => child.2.scalars.map (Leaf.under child.1) := by
  cases value with
  | array items =>
      have hall : ∀ index items, itemScalars index items
          = (items.zipIdx index).flatMap fun item =>
            item.1.scalars.map (Leaf.under (.item item.2)) := by
        intro index items
        induction items generalizing index with
        | nil => rfl
        | cons item rest ih => rw [itemScalars, ih, List.zipIdx_cons, List.flatMap_cons]
      rw [scalars, hall, children, List.flatMap_map]
  | object fields =>
      have hall : ∀ fields, fieldScalars fields
          = fields.flatMap fun field => field.2.scalars.map (Leaf.under (.field field.1)) := by
        intro fields
        induction fields with
        | nil => rfl
        | cons field rest ih => rw [fieldScalars, ih, List.flatMap_cons]
      rw [scalars, hall, children, List.flatMap_map]
  | _ => exact absurd trivial h

/-- What holds of scalars, and of an array or an object when it holds of its children, holds of
all. -/
@[elab_as_elim]
theorem children_induction {motive : Json → Prop}
    (scalar : ∀ value : Json, value.IsScalar → motive value)
    (nested : ∀ value : Json, ¬ value.IsScalar → (∀ child ∈ value.children, motive child.2) →
      motive value)
    (value : Json) : motive value := by
  induction value using Json.induction with
  | array items ih =>
      refine nested _ id fun child hchild => ?_
      obtain ⟨item, hitem, rfl⟩ := List.mem_map.mp hchild
      exact ih _ (List.fst_mem_of_mem_zipIdx hitem)
  | object fields ih =>
      refine nested _ id fun child hchild => ?_
      obtain ⟨field, hfield, rfl⟩ := List.mem_map.mp hchild
      exact ih _ hfield
  | _ => exact scalar _ trivial

/-- **Each place with a scalar is listed**, and no other. -/
theorem mem_scalars_iff (h : value.Ordered) {leaf : Leaf} :
    leaf ∈ value.scalars ↔ value.follow? leaf.steps = some leaf.value ∧ leaf.value.IsScalar := by
  induction value using children_induction generalizing leaf with
  | scalar value hscalar =>
      obtain ⟨steps, found⟩ := leaf
      have hnone : ∀ step, value.child? step = none := by
        intro step
        cases value with
        | array items => cases hscalar
        | object fields => cases hscalar
        | _ => rfl
      rw [scalars_of_isScalar hscalar, List.mem_singleton, Leaf.mk.injEq]
      cases steps with
      | nil =>
          rw [follow?, Option.some.injEq]
          constructor
          · rintro ⟨-, rfl⟩
            exact ⟨rfl, hscalar⟩
          · rintro ⟨rfl, -⟩
            exact ⟨rfl, rfl⟩
      | cons step rest => simp [follow?, hnone]
  | nested value hnested ih =>
      obtain ⟨steps, found⟩ := leaf
      rw [scalars_eq_flatMap hnested, List.mem_flatMap]
      constructor
      · rintro ⟨⟨step, child⟩, hchild, hleaf⟩
        obtain ⟨below, hbelow, heq⟩ := List.mem_map.mp hleaf
        obtain ⟨rfl, rfl⟩ := Leaf.mk.inj heq
        obtain ⟨hfollow, hscalar⟩ := (ih _ hchild (h.of_mem_children hchild)).mp hbelow
        exact ⟨follow?_cons_eq_some_iff.mpr ⟨child, (child?_eq_some_iff h).mpr hchild, hfollow⟩,
          hscalar⟩
      · rintro ⟨hfollow, hscalar⟩
        cases steps with
        | nil =>
            -- no steps lead to the value itself, which is no scalar
            obtain rfl : value = found := Option.some.inj hfollow
            exact absurd hscalar hnested
        | cons step rest =>
            obtain ⟨child, hchild, hfollow⟩ := follow?_cons_eq_some_iff.mp hfollow
            have hmem := (child?_eq_some_iff h).mp hchild
            have hbelow : ⟨rest, found⟩ ∈ child.scalars :=
              (ih _ hmem (h.of_mem_children hmem)).mpr ⟨hfollow, hscalar⟩
            exact ⟨(step, child), hmem, List.mem_map_of_mem hbelow⟩

/-- **Scalars are listed in the order of their places.** -/
theorem pairwise_scalars (h : value.Ordered) :
    value.scalars.Pairwise fun leaf leaf' => Earlier leaf.steps leaf'.steps := by
  induction value using children_induction with
  | scalar value hscalar =>
      rw [scalars_of_isScalar hscalar]
      exact List.pairwise_singleton _ _
  | nested value hnested ih =>
      rw [scalars_eq_flatMap hnested, List.pairwise_flatMap]
      constructor
      · intro child hchild
        refine List.pairwise_map.mpr ((ih child hchild (h.of_mem_children hchild)).imp ?_)
        exact fun hearlier => .cons hearlier
      · -- scalars of different children differ in their first step
        refine (pairwise_children h).imp fun hbefore leaf hleaf leaf' hleaf' => ?_
        obtain ⟨below, -, rfl⟩ := List.mem_map.mp hleaf
        obtain ⟨below', -, rfl⟩ := List.mem_map.mp hleaf'
        exact .rel hbefore

end ResourceQuery.Json
