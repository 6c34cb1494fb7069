import ResourceQuery.Proofs.QueryString.Traces
import ResourceQuery.Proofs.Text.Pieces

/-!
# Values that their traces determine

An array or an object without scalars has no traces, so a value cannot always be told from its
traces. It can when arrays are not empty, except for the arguments of a condition, which has a kind
beside them, and when the names in an object can be told from indices and from the fields of a
condition (`Traceable`). The traces of an array or an object come in groups with one first step
each, and the groups can be told from their first steps (`gather_injective`). Main statement:
traceable values with the same traces are the same (`Traceable.eq_of_traces_eq`).
-/

set_option autoImplicit false

namespace ResourceQuery.QueryString

/-! ## Groups of traces -/

/-- Groups of traces, each below a step. -/
def gather (groups : List (String × List Trace)) : List Trace :=
  groups.flatMap fun group => group.2.map (Trace.under group.1)

theorem gather_cons (group : String × List Trace) (rest : List (String × List Trace)) :
    gather (group :: rest) = group.2.map (Trace.under group.1) ++ gather rest := List.flatMap_cons

theorem mem_gather {trace : Trace} {groups : List (String × List Trace)} :
    trace ∈ gather groups
      ↔ ∃ group ∈ groups, ∃ below ∈ group.2, below.under group.1 = trace := by
  simp only [gather, List.mem_flatMap, List.mem_map]

/-- The first step of the first trace. -/
def firstStep? (traces : List Trace) : Option String := traces.head?.bind (·.steps.head?)

theorem firstStep?_gather {group : String × List Trace} {rest : List (String × List Trace)}
    (h : group.2 ≠ []) : firstStep? (gather (group :: rest)) = some group.1 := by
  obtain ⟨step, traces⟩ := group
  cases traces with
  | nil => exact absurd rfl h
  | cons trace more => rfl

/-- The traces that start with a step, in front of others that do not. -/
theorem takeWhile_gather {group : String × List Trace} {rest : List (String × List Trace)}
    (hnew : group.1 ∉ rest.map Prod.fst) :
    (gather (group :: rest)).takeWhile (·.steps.head? = some group.1)
      = group.2.map (Trace.under group.1) := by
  have hall : ∀ trace ∈ group.2.map (Trace.under group.1),
      decide (trace.steps.head? = some group.1) = true := by
    intro trace hmem
    obtain ⟨below, -, rfl⟩ := List.mem_map.mp hmem
    exact decide_eq_true rfl
  -- the next group starts with another step
  have hnone : (gather rest).takeWhile (·.steps.head? = some group.1) = [] := by
    cases hrest : gather rest with
    | nil => rfl
    | cons trace more =>
        obtain ⟨other, hother, below, -, rfl⟩ := mem_gather.mp (hrest ▸ List.mem_cons_self)
        refine List.takeWhile_cons_of_neg fun hhead => hnew ?_
        have hstep : other.1 = group.1 := Option.some.inj (of_decide_eq_true hhead)
        exact hstep ▸ List.mem_map_of_mem hother
  rw [gather_cons, List.takeWhile_append_of_pos hall, hnone, List.append_nil]

/-- Groups that are not empty can be told from their steps, if these are all different. -/
theorem gather_injective {groups groups' : List (String × List Trace)}
    (hnodup : (groups.map Prod.fst).Nodup) (hnodup' : (groups'.map Prod.fst).Nodup)
    (hne : ∀ group ∈ groups, group.2 ≠ []) (hne' : ∀ group ∈ groups', group.2 ≠ [])
    (h : gather groups = gather groups') : groups = groups' := by
  induction groups generalizing groups' with
  | nil =>
      cases groups' with
      | nil => rfl
      | cons group rest =>
          have hstep := congrArg firstStep? h
          rw [firstStep?_gather (hne' group List.mem_cons_self)] at hstep
          cases hstep
  | cons group rest ih =>
      obtain ⟨hgroup, hrest⟩ := List.forall_mem_cons.mp hne
      obtain ⟨hnew, hnodup⟩ := List.nodup_cons.mp hnodup
      cases groups' with
      | nil =>
          have hstep := congrArg firstStep? h
          rw [firstStep?_gather hgroup] at hstep
          cases hstep
      | cons group' rest' =>
          obtain ⟨hgroup', hrest'⟩ := List.forall_mem_cons.mp hne'
          obtain ⟨hnew', hnodup'⟩ := List.nodup_cons.mp hnodup'
          have hstep : group.1 = group'.1 := by
            have hfirst := congrArg firstStep? h
            rwa [firstStep?_gather hgroup, firstStep?_gather hgroup', Option.some.injEq] at hfirst
          -- the first groups are what starts with their step, and the others are what is left
          have hfirst :
              group.2.map (Trace.under group.1) = group'.2.map (Trace.under group'.1) := by
            rw [← takeWhile_gather hnew, ← takeWhile_gather hnew', h, hstep]
          have hothers : gather rest = gather rest' := by
            rw [gather_cons, gather_cons, hfirst] at h
            exact List.append_cancel_left h
          have htraces : group.2 = group'.2 := by
            rw [hstep] at hfirst
            exact (List.map_inj_right fun _ _ => (Trace.under_injective group'.1 ·)).mp hfirst
          rw [ih hnodup hnodup' hrest hrest' hothers, Prod.ext hstep htraces]

/-! ## Arrays and objects as groups -/

def itemGroups (index : Nat) : List Json → List (String × List Trace)
  | [] => []
  | item :: rest => (toString index, traces item) :: itemGroups (index + 1) rest

def fieldGroups (fields : List (String × Json)) : List (String × List Trace) :=
  fields.map fun field => (field.1, traces field.2)

theorem itemTraces_eq (index : Nat) (items : List Json) :
    itemTraces index items = gather (itemGroups index items) := by
  induction items generalizing index with
  | nil => rfl
  | cons item rest ih => rw [itemTraces, itemGroups, gather_cons, ih]

theorem fieldTraces_eq (fields : List (String × Json)) :
    fieldTraces fields = gather (fieldGroups fields) := by
  induction fields with
  | nil => rfl
  | cons field rest ih => rw [fieldTraces, ih]; rfl

theorem mem_itemGroups {index : Nat} {items : List Json} {group : String × List Trace}
    (h : group ∈ itemGroups index items) :
    ∃ i item, index ≤ i ∧ item ∈ items ∧ group = (toString i, traces item) := by
  induction items generalizing index with
  | nil => cases h
  | cons item rest ih =>
      rcases List.mem_cons.mp h with rfl | hmem
      · exact ⟨index, item, Nat.le_refl _, List.mem_cons_self, rfl⟩
      · obtain ⟨i, other, hle, hother, rfl⟩ := ih hmem
        exact ⟨i, other, by omega, List.mem_cons_of_mem _ hother, rfl⟩

theorem nodup_itemGroups (index : Nat) (items : List Json) :
    ((itemGroups index items).map Prod.fst).Nodup := by
  induction items generalizing index with
  | nil => exact List.nodup_nil
  | cons item rest ih =>
      rw [itemGroups, List.map_cons, List.nodup_cons]
      refine ⟨fun hmem => ?_, ih (index + 1)⟩
      obtain ⟨group, hgroup, hindex⟩ := List.mem_map.mp hmem
      obtain ⟨i, other, hle, -, rfl⟩ := mem_itemGroups hgroup
      have heq : i = index := Text.toString_injective hindex
      omega

/-! ## Traceable values -/

/-- A name in an object that is neither an index nor a field of a condition. -/
structure IsPartName (name : String) : Prop where
  bracket_notMem : '[' ∉ name.toList
  ne_index : name ≠ "0"
  ne_args : name ≠ "args"
  ne_type : name ≠ "type"

/-- A value that its traces determine. -/
inductive Traceable : Json → Prop
  | text (text : String) : Traceable (.string text)
  | condition (args : List String) (kind : String) :
    Traceable (.object [("args", .array (args.map .string)), ("type", .string kind)])
  | array {items : List Json} (hne : items ≠ []) (hitems : ∀ item ∈ items, Traceable item) :
    Traceable (.array items)
  | object {fields : List (String × Json)} (hne : fields ≠ [])
    (hnodup : (fields.map Prod.fst).Nodup) (hnames : ∀ field ∈ fields, IsPartName field.1)
    (hvalues : ∀ field ∈ fields, Traceable field.2) : Traceable (.object fields)

namespace Traceable

/-! ## Traces of traceable values -/

/-- The groups of a condition. -/
theorem traces_condition (args : List String) (kind : String) :
    traces (.object [("args", .array (args.map .string)), ("type", .string kind)])
      = (itemTraces 0 (args.map .string)).map (Trace.under "args") ++ [⟨["type"], kind⟩] := rfl

theorem gather_ne_nil {groups : List (String × List Trace)} (hne : groups ≠ [])
    (h : ∀ group ∈ groups, group.2 ≠ []) : gather groups ≠ [] := by
  obtain ⟨group, rest, rfl⟩ := List.exists_cons_of_ne_nil hne
  obtain ⟨trace, htrace⟩ := List.exists_mem_of_ne_nil _ (h group List.mem_cons_self)
  exact List.ne_nil_of_mem (mem_gather.mpr ⟨group, List.mem_cons_self, trace, htrace, rfl⟩)

theorem itemGroups_ne_nil {items : List Json} (h : ∀ item ∈ items, traces item ≠ []) {index : Nat}
    {group : String × List Trace} (hgroup : group ∈ itemGroups index items) : group.2 ≠ [] := by
  obtain ⟨i, item, -, hitem, rfl⟩ := mem_itemGroups hgroup
  exact h item hitem

theorem fieldGroups_ne_nil {fields : List (String × Json)}
    (h : ∀ field ∈ fields, traces field.2 ≠ []) {group : String × List Trace}
    (hgroup : group ∈ fieldGroups fields) : group.2 ≠ [] := by
  obtain ⟨field, hfield, rfl⟩ := List.mem_map.mp hgroup
  exact h field hfield

/-- A traceable value has a trace. -/
theorem traces_ne_nil {value : Json} (h : Traceable value) : traces value ≠ [] := by
  induction h with
  | text text => exact List.cons_ne_nil _ _
  | condition args kind =>
      rw [traces_condition]
      exact List.append_ne_nil_of_right_ne_nil _ (List.cons_ne_nil _ _)
  | @array items hne _ ih =>
      obtain ⟨item, rest, rfl⟩ := List.exists_cons_of_ne_nil hne
      rw [traces, itemTraces_eq]
      exact gather_ne_nil (List.cons_ne_nil _ _) fun _ => itemGroups_ne_nil ih
  | @object fields hne _ _ _ ih =>
      rw [traces, fieldTraces_eq]
      exact gather_ne_nil (by simpa [fieldGroups] using hne) fun _ => fieldGroups_ne_nil ih

/-- No step in a traceable value has an opening bracket. -/
theorem bracket_notMem {value : Json} (h : Traceable value) {trace : Trace}
    (htrace : trace ∈ traces value) : ∀ step ∈ trace.steps, '[' ∉ step.toList := by
  have hindex : ∀ index : Nat, '[' ∉ (toString index).toList := Text.notMem_toString (by decide)
  induction h generalizing trace with
  | text text =>
      obtain rfl := List.mem_singleton.mp htrace
      exact List.forall_mem_nil _
  | condition args kind =>
      rw [traces_condition, List.mem_append, List.mem_singleton, itemTraces_eq] at htrace
      rcases htrace with htrace | rfl
      · obtain ⟨below, hbelow, rfl⟩ := List.mem_map.mp htrace
        obtain ⟨group, hgroup, last, hlast, rfl⟩ := mem_gather.mp hbelow
        obtain ⟨i, item, -, hitem, rfl⟩ := mem_itemGroups hgroup
        obtain ⟨arg, -, rfl⟩ := List.mem_map.mp hitem
        obtain rfl := List.mem_singleton.mp hlast
        refine List.forall_mem_cons.mpr ⟨by decide, ?_⟩
        exact List.forall_mem_cons.mpr ⟨hindex i, List.forall_mem_nil _⟩
      · exact List.forall_mem_singleton.mpr (by decide)
  | array hne _ ih =>
      rw [traces, itemTraces_eq] at htrace
      obtain ⟨group, hgroup, below, hbelow, rfl⟩ := mem_gather.mp htrace
      obtain ⟨i, item, -, hitem, rfl⟩ := mem_itemGroups hgroup
      exact List.forall_mem_cons.mpr ⟨hindex i, ih item hitem hbelow⟩
  | object hne _ hnames _ ih =>
      rw [traces, fieldTraces_eq] at htrace
      obtain ⟨group, hgroup, below, hbelow, rfl⟩ := mem_gather.mp htrace
      obtain ⟨field, hfield, rfl⟩ := List.mem_map.mp hgroup
      exact List.forall_mem_cons.mpr
        ⟨(hnames field hfield).bracket_notMem, ih field hfield hbelow⟩

/-! ## The shape of a value -/

/-- The shapes of traceable values. -/
inductive Shape
  | text
  | array
  | condition
  | object
  deriving DecidableEq

/-- The shape that a first step tells. -/
def shapeOf : Option String → Shape
  | none => .text
  | some step =>
    if step = "0" then .array else if step = "args" ∨ step = "type" then .condition else .object

theorem shapeOf_name {name : String} (h : IsPartName name) : shapeOf (some name) = .object := by
  simp [shapeOf, h.ne_index, h.ne_args, h.ne_type]

def shape : Json → Shape
  | .array _ => .array
  | .object fields => shapeOf (fields.head?.map Prod.fst)
  | _ => .text

theorem shape_object {fields : List (String × Json)} (hne : fields ≠ [])
    (hnames : ∀ field ∈ fields, IsPartName field.1) : shape (.object fields) = .object := by
  obtain ⟨field, rest, rfl⟩ := List.exists_cons_of_ne_nil hne
  exact shapeOf_name (hnames field List.mem_cons_self)

/-- The traces of a value tell its shape. -/
theorem shapeOf_firstStep? {value : Json} (h : Traceable value) :
    shapeOf (firstStep? (traces value)) = shape value := by
  cases h with
  | text text => rfl
  | condition args kind =>
      rw [traces_condition]
      cases args with
      | nil => rfl
      | cons arg rest => rfl
  | @array items hne hitems =>
      obtain ⟨item, rest, rfl⟩ := List.exists_cons_of_ne_nil hne
      have hitem := (hitems item List.mem_cons_self).traces_ne_nil
      rw [traces, itemTraces_eq, itemGroups, firstStep?_gather hitem]
      rfl
  | @object fields hne _ hnames hvalues =>
      obtain ⟨field, rest, rfl⟩ := List.exists_cons_of_ne_nil hne
      have hvalue := (hvalues field List.mem_cons_self).traces_ne_nil
      rw [traces, fieldTraces_eq, fieldGroups, List.map_cons, firstStep?_gather hvalue]
      rfl

theorem shape_eq {value other : Json} (h : Traceable value) (h' : Traceable other)
    (heq : traces value = traces other) : shape value = shape other := by
  rw [← h.shapeOf_firstStep?, heq, h'.shapeOf_firstStep?]

/-! ## Traces determine a value -/

/-- Items with the same groups are the same if their traces determine them. -/
theorem items_eq_of_itemGroups_eq {items others : List Json} {index : Nat}
    (hitems : ∀ item ∈ items, ∀ other, Traceable other → traces item = traces other →
      item = other)
    (hothers : ∀ other ∈ others, Traceable other)
    (h : itemGroups index items = itemGroups index others) : items = others := by
  induction items generalizing others index with
  | nil =>
      cases others with
      | nil => rfl
      | cons other rest => cases h
  | cons item rest ih =>
      cases others with
      | nil => cases h
      | cons other others =>
          obtain ⟨hgroup, hrest⟩ := List.cons.inj h
          have hitem := hitems item List.mem_cons_self other (hothers other List.mem_cons_self)
            (Prod.mk.inj hgroup).2
          rw [hitem, ih (fun item' hmem => hitems item' (List.mem_cons_of_mem _ hmem))
            (fun other' hmem => hothers other' (List.mem_cons_of_mem _ hmem)) hrest]

/-- The same for fields. -/
theorem fields_eq_of_fieldGroups_eq {fields others : List (String × Json)}
    (hfields : ∀ field ∈ fields, ∀ other, Traceable other → traces field.2 = traces other →
      field.2 = other)
    (hothers : ∀ other ∈ others, Traceable other.2)
    (h : fieldGroups fields = fieldGroups others) : fields = others := by
  induction fields generalizing others with
  | nil =>
      cases others with
      | nil => rfl
      | cons other rest => cases h
  | cons field rest ih =>
      cases others with
      | nil => cases h
      | cons other others =>
          obtain ⟨hgroup, hrest⟩ := List.cons.inj h
          obtain ⟨hname, htraces⟩ := Prod.mk.inj hgroup
          have hvalue := hfields field List.mem_cons_self other.2
            (hothers other List.mem_cons_self) htraces
          rw [Prod.ext hname hvalue,
            ih (fun field' hmem => hfields field' (List.mem_cons_of_mem _ hmem))
              (fun other' hmem => hothers other' (List.mem_cons_of_mem _ hmem)) hrest]

/-- Fields with different names are determined by their traces if each value is. -/
theorem fields_eq_of_forall {fields others : List (String × Json)}
    (hnodup : (fields.map Prod.fst).Nodup) (hnodup' : (others.map Prod.fst).Nodup)
    (hvalues : ∀ field ∈ fields, Traceable field.2)
    (hvalues' : ∀ other ∈ others, Traceable other.2)
    (hfields : ∀ field ∈ fields, ∀ other, Traceable other → traces field.2 = traces other →
      field.2 = other)
    (h : fieldTraces fields = fieldTraces others) : fields = others := by
  have hsteps : ∀ fields, (fieldGroups fields).map Prod.fst = fields.map Prod.fst := fun _ =>
    List.map_map
  rw [fieldTraces_eq, fieldTraces_eq] at h
  refine fields_eq_of_fieldGroups_eq hfields hvalues' (gather_injective ?_ ?_ ?_ ?_ h)
  · rwa [hsteps]
  · rwa [hsteps]
  · exact fun _ => fieldGroups_ne_nil fun field hmem => (hvalues field hmem).traces_ne_nil
  · exact fun _ => fieldGroups_ne_nil fun field hmem => (hvalues' field hmem).traces_ne_nil

/-- The texts of the arguments of a condition, and its kind. -/
theorem text_traces_condition (args : List String) (kind : String) :
    (traces (.object [("args", .array (args.map .string)), ("type", .string kind)])).map Trace.text
      = args ++ [kind] := by
  have hitems : ∀ (args : List String) (index : Nat),
      (itemTraces index (args.map .string)).map Trace.text = args := by
    intro args
    induction args with
    | nil => exact fun _ => rfl
    | cons arg rest ih =>
        intro index
        rw [List.map_cons, itemTraces, List.map_append, ih]
        rfl
  rw [traces_condition, List.map_append, List.map_map]
  exact congrArg (· ++ [kind]) (hitems args 0)

/-- **Traceable values with the same traces are the same.** -/
theorem eq_of_traces_eq {value other : Json} (h : Traceable value) (h' : Traceable other)
    (heq : traces value = traces other) : value = other := by
  induction h generalizing other with
  -- of one shape, text against text
  | text text =>
      have hshape := shape_eq (.text text) h' heq
      cases h' with
      | text text' => exact congrArg Json.string (Trace.mk.inj (List.cons.inj heq).1).2
      | condition args kind => cases hshape
      | array hne hitems => cases hshape
      | object hne _ hnames _ => rw [shape_object hne hnames] at hshape; cases hshape
  | condition args kind =>
      have hshape := shape_eq (.condition args kind) h' heq
      cases h' with
      | text text => cases hshape
      | condition args' kind' =>
          -- the last text is the kind, and those before it are the arguments
          have htexts := congrArg (List.map Trace.text) heq
          rw [text_traces_condition, text_traces_condition] at htexts
          obtain ⟨rfl, hkind⟩ := List.append_inj' htexts rfl
          rw [(List.cons.inj hkind).1]
      | array hne hitems => cases hshape
      | object hne _ hnames _ => rw [shape_object hne hnames] at hshape; cases hshape
  | @array items hne hitems ih =>
      have hshape := shape_eq (.array hne hitems) h' heq
      cases h' with
      | text text => cases hshape
      | condition args kind => cases hshape
      | @array others hne' hothers =>
          -- the groups are told apart by their indices
          rw [traces, traces, itemTraces_eq, itemTraces_eq] at heq
          have hgroups := gather_injective (nodup_itemGroups 0 items) (nodup_itemGroups 0 others)
            (fun _ => itemGroups_ne_nil fun item hmem => (hitems item hmem).traces_ne_nil)
            (fun _ => itemGroups_ne_nil fun other hmem => (hothers other hmem).traces_ne_nil) heq
          rw [items_eq_of_itemGroups_eq (fun item hmem _ => ih item hmem) hothers hgroups]
      | object hne' _ hnames _ => rw [shape_object hne' hnames] at hshape; cases hshape
  | @object fields hne hnodup hnames hvalues ih =>
      have hshape := shape_eq (.object hne hnodup hnames hvalues) h' heq
      rw [shape_object hne hnames] at hshape
      cases h' with
      | text text => cases hshape
      | condition args kind => cases hshape
      | array hne' hothers => cases hshape
      | object hne' hnodup' hnames' hvalues' =>
          -- the groups are told apart by their names
          rw [fields_eq_of_forall hnodup hnodup' hvalues hvalues'
            (fun field hmem _ => ih field hmem) heq]

end Traceable

/-- Fields with different names and traceable values are determined by their traces. -/
theorem fields_eq_of_fieldTraces_eq {fields others : List (String × Json)}
    (hnodup : (fields.map Prod.fst).Nodup) (hnodup' : (others.map Prod.fst).Nodup)
    (hvalues : ∀ field ∈ fields, Traceable field.2)
    (hvalues' : ∀ other ∈ others, Traceable other.2)
    (h : fieldTraces fields = fieldTraces others) : fields = others :=
  Traceable.fields_eq_of_forall hnodup hnodup' hvalues hvalues'
    (fun field hmem _ h' => (hvalues field hmem).eq_of_traces_eq h') h

end ResourceQuery.QueryString
