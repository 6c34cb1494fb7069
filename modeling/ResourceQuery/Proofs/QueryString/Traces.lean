import ResourceQuery.QueryString

/-!
# Scalars by their steps

A query string has a pair for each scalar. Its place is a row of steps, the indices and names that
lead to the scalar, written with brackets. `traces` keeps the steps apart, and `paramLeaves_eq` says
that a query string writes the traces of the parameters. As long as no step has an opening bracket,
the steps are read from a place (`stepsOf_place`). `texts` puts the text of every scalar in its
place, which does not change the traces (`traces_texts`).
-/

set_option autoImplicit false

namespace ResourceQuery.QueryString

/-! ## Traces -/

/-- The text of a scalar, and the steps that lead to it. -/
structure Trace where
  steps : List String
  text : String
  deriving DecidableEq

/-- A trace in a value as a trace in the value around it. -/
def Trace.under (step : String) (trace : Trace) : Trace := ⟨step :: trace.steps, trace.text⟩

theorem Trace.under_injective (step : String) : Function.Injective (Trace.under step) := by
  intro trace trace' h
  obtain ⟨hsteps, htext⟩ := Trace.mk.inj h
  cases trace
  cases trace'
  rw [Trace.mk.injEq]
  exact ⟨(List.cons.inj hsteps).2, htext⟩

mutual

/-- The traces of all scalars of a value. -/
def traces : Json → List Trace
  | .array items => itemTraces 0 items
  | .object fields => fieldTraces fields
  | scalar => [⟨[], scalarText scalar⟩]

def itemTraces (index : Nat) : List Json → List Trace
  | [] => []
  | item :: rest => (traces item).map (Trace.under (toString index)) ++ itemTraces (index + 1) rest

def fieldTraces : List (String × Json) → List Trace
  | [] => []
  | (name, value) :: rest => (traces value).map (Trace.under name) ++ fieldTraces rest

end

/-! ## Places -/

/-- The place that steps lead to, of which the first is a parameter name. -/
def place : List String → String
  | [] => ""
  | name :: steps => steps.foldl below name

/-- A trace as a pair of a place and a text. -/
def Trace.pair (trace : Trace) : String × String := (place trace.steps, trace.text)

section Leaves

/-- A trace below a place as a pair. -/
def Trace.leaf (start : String) (trace : Trace) : String × String :=
  (trace.steps.foldl below start, trace.text)

mutual

theorem leaves_eq (start : String) :
    ∀ value : Json, leaves start value = (traces value).map (Trace.leaf start)
  | .null => rfl
  | .bool _ => rfl
  | .number _ => rfl
  | .string _ => rfl
  | .array items => itemLeaves_eq start 0 items
  | .object fields => fieldLeaves_eq start fields

theorem itemLeaves_eq (start : String) (index : Nat) :
    ∀ items : List Json, itemLeaves start index items
      = (itemTraces index items).map (Trace.leaf start)
  | [] => rfl
  | item :: rest => by
      rw [itemLeaves, itemTraces, leaves_eq, itemLeaves_eq, List.map_append, List.map_map]
      rfl

theorem fieldLeaves_eq (start : String) :
    ∀ fields : List (String × Json), fieldLeaves start fields
      = (fieldTraces fields).map (Trace.leaf start)
  | [] => rfl
  | (name, value) :: rest => by
      rw [fieldLeaves, fieldTraces, leaves_eq, fieldLeaves_eq, List.map_append, List.map_map]
      rfl

end

/-- A query string writes the traces of the parameters. -/
theorem paramLeaves_eq (params : Params) :
    paramLeaves params = (fieldTraces params).map Trace.pair := by
  induction params with
  | nil => rfl
  | cons param rest ih =>
      obtain ⟨name, value⟩ := param
      rw [paramLeaves, fieldTraces, leaves_eq, ih, List.map_append, List.map_map]
      rfl

end Leaves

/-! ## Reading places -/

/-- The steps that lead to a place: pieces between opening brackets, of which all but the first end
in a closing one. -/
def stepsOf (place : String) : List String :=
  match place.toList.splitOn '[' with
  | [] => []
  | name :: steps => String.ofList name :: steps.map fun step => String.ofList step.dropLast

theorem toList_place (name : String) (steps : List String) :
    (place (name :: steps)).toList
      = ['['].intercalate (name.toList :: steps.map fun step => step.toList ++ [']']) := by
  have hfold : (place (name :: steps)).toList
      = name.toList ++ steps.flatMap fun step => '[' :: step.toList ++ [']'] := by
    show (steps.foldl below name).toList = _
    induction steps generalizing name with
    | nil => simp
    | cons step rest ih =>
        rw [List.foldl_cons, ih, List.flatMap_cons, below]
        simp
  -- the name is just what stands in front, so the induction is over what follows it
  rw [hfold]
  clear hfold
  generalize name.toList = front
  induction steps generalizing front with
  | nil => simp
  | cons step rest ih =>
      rw [List.map_cons, List.intercalate_cons_cons, ← ih, List.flatMap_cons]
      simp

/-- Steps without an opening bracket are read from their place. -/
theorem stepsOf_place {steps : List String} (hne : steps ≠ [])
    (h : ∀ step ∈ steps, '[' ∉ step.toList) : stepsOf (place steps) = steps := by
  cases steps with
  | nil => exact absurd rfl hne
  | cons name steps =>
      obtain ⟨hname, hsteps⟩ := List.forall_mem_cons.mp h
      -- every opening bracket starts a step
      have hpieces : ∀ piece ∈ name.toList :: steps.map (fun step => step.toList ++ [']']),
          '[' ∉ piece := by
        refine List.forall_mem_cons.mpr ⟨hname, fun piece hpiece => ?_⟩
        obtain ⟨step, hstep, rfl⟩ := List.mem_map.mp hpiece
        simpa using hsteps step hstep
      have hsplit : (place (name :: steps)).toList.splitOn '['
          = name.toList :: steps.map fun step => step.toList ++ [']'] := by
        rw [toList_place]
        exact List.splitOn_intercalate '[' hpieces (List.cons_ne_nil _ _)
      have hread : (fun step => String.ofList step.dropLast) ∘ (fun step : String =>
          step.toList ++ [']']) = id := by
        funext step
        simp
      rw [stepsOf, hsplit]
      show String.ofList name.toList :: List.map _ (List.map _ steps) = _
      rw [String.ofList_toList, List.map_map, hread, List.map_id]

/-! ## Texts in place of scalars -/

mutual

/-- A value with the text of every scalar in its place. -/
def texts : Json → Json
  | .array items => .array (itemTexts items)
  | .object fields => .object (fieldTexts fields)
  | scalar => .string (scalarText scalar)

def itemTexts : List Json → List Json
  | [] => []
  | item :: rest => texts item :: itemTexts rest

def fieldTexts : List (String × Json) → List (String × Json)
  | [] => []
  | (name, value) :: rest => (name, texts value) :: fieldTexts rest

end

theorem itemTexts_eq_map (items : List Json) : itemTexts items = items.map texts := by
  induction items with
  | nil => rfl
  | cons item rest ih => rw [itemTexts, ih, List.map_cons]

theorem fieldTexts_eq_map (fields : List (String × Json)) :
    fieldTexts fields = fields.map fun field => (field.1, texts field.2) := by
  induction fields with
  | nil => rfl
  | cons field rest ih => rw [fieldTexts, ih, List.map_cons]

mutual

/-- A scalar and its text have the same trace. -/
theorem traces_texts : ∀ value : Json, traces (texts value) = traces value
  | .null => rfl
  | .bool _ => rfl
  | .number _ => rfl
  | .string _ => rfl
  | .array items => itemTraces_itemTexts 0 items
  | .object fields => fieldTraces_fieldTexts fields

theorem itemTraces_itemTexts (index : Nat) :
    ∀ items : List Json, itemTraces index (itemTexts items) = itemTraces index items
  | [] => rfl
  | item :: rest => by
      rw [itemTexts, itemTraces, itemTraces, traces_texts, itemTraces_itemTexts]

theorem fieldTraces_fieldTexts :
    ∀ fields : List (String × Json), fieldTraces (fieldTexts fields) = fieldTraces fields
  | [] => rfl
  | (name, value) :: rest => by
      rw [fieldTexts, fieldTraces, fieldTraces, traces_texts, fieldTraces_fieldTexts]

end

end ResourceQuery.QueryString
