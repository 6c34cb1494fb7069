import ResourceQuery.Proofs.Filter.Program
import ResourceQuery.Proofs.Params.Parts
import ResourceQuery.Proofs.Query.Built
import ResourceQuery.Proofs.Query.ReadBack
import ResourceQuery.Proofs.QueryString.FormEncoding
import ResourceQuery.Proofs.QueryString.Traceable

/-!
# Query strings of built queries

A built query without empty groups has traceable parameters: its parts are not empty, conditions
have a kind, and the names in a relationship are neither indices nor fields of a condition. Pairs
are read from a query string and steps from their places, so the query string determines the traces
of the parameters and with them the parameters, up to the texts of their scalars. Main statement:
`QueryString.ofParams_eq_iff`.
-/

set_option autoImplicit false

namespace ResourceQuery

open QueryString

/-! ## Filters -/

theorem Arg.texts_toJson (arg : Arg) : texts arg.toJson = .string (scalarText arg.toJson) := by
  cases arg with
  | float value =>
      rw [toJson]
      split
      · rfl
      · rfl
  | bool value => rfl
  | int value => rfl
  | string value => rfl

theorem Condition.toJson_ascending (asked : Condition) :
    asked.toJson .ascending = .object
      [("args", .array (asked.args.map Arg.toJson)), ("type", .string asked.kind.name)] := by
  have hlt : "args" < "type" := by decide
  simp [toJson, FieldOrder.object, Ascending.ofPairs, Ascending.insert, hlt]

namespace FilterNode

/-- A node in which no group is empty is determined by its traces. -/
theorem traceable {node : FilterNode} (h : ∀ row ∈ node.innerRows, row ≠ []) :
    Traceable (texts (node.toJson .ascending)) := by
  induction node using FilterNode.induction with
  | join how =>
      rw [toJson]
      exact .text how.name
  | condition asked =>
      have hargs : itemTexts (asked.args.map Arg.toJson)
          = (asked.args.map fun arg => scalarText arg.toJson).map .string := by
        rw [itemTexts_eq_map, List.map_map, List.map_map]
        exact List.map_congr_left fun arg _ => arg.texts_toJson
      have htexts : texts (asked.toJson .ascending)
          = .object [("args", .array (itemTexts (asked.args.map Arg.toJson))),
            ("type", .string asked.kind.name)] := by
        rw [Condition.toJson_ascending]
        rfl
      rw [toJson, htexts, hargs]
      exact .condition _ _
  | group nodes ih =>
      rw [innerRows, List.forall_mem_cons] at h
      rw [toJson, listToJson_eq_map, texts, itemTexts_eq_map, List.map_map]
      refine .array (by simpa using h.1) fun item hitem => ?_
      obtain ⟨node, hnode, rfl⟩ := List.mem_map.mp hitem
      exact ih node hnode fun row hrow => h.2 row (mem_listInnerRows.mpr ⟨node, hnode, hrow⟩)

end FilterNode

/-! ## Queries -/

/-- No group in the filter of the query itself is empty. -/
def Query.GroupsFilled (query : Query) : Prop :=
  ∀ nodes ∈ query.filters, ∀ row ∈ FilterNode.listInnerRows nodes, row ≠ []

/-- The parts of a query are determined by their traces if its relationships are. -/
theorem Query.traceable_part {query : Query} (hparts : query.PartsFilled)
    (hgroups : query.GroupsFilled)
    (hrelated : ∀ row ∈ query.relationships, ∀ relationship ∈ row,
      Traceable (texts (relationship.toJson .ascending)))
    {part : Json} (h : query.IsPart part) : Traceable (texts part) := by
  rcases h with ⟨columns, hcolumns, rfl⟩ | ⟨nodes, hnodes, rfl⟩ | ⟨row, hrow, rfl⟩
  · -- columns
    rw [stringsToJson, texts, itemTexts_eq_map, List.map_map]
    refine .array (by simpa using hparts.columns columns hcolumns) fun item hitem => ?_
    obtain ⟨column, -, rfl⟩ := List.mem_map.mp hitem
    exact .text column
  · -- the filter, which is sent as a group of its nodes would be
    have hgroup : Traceable (texts (FilterNode.toJson .ascending (.group nodes))) :=
      FilterNode.traceable (List.forall_mem_cons.mpr
        ⟨hparts.filters nodes hnodes, hgroups nodes hnodes⟩)
    rw [FilterNode.toJson] at hgroup
    exact hgroup
  · -- relationships
    rw [Params.ofRelationships, Relationship.listToJson_eq_map, texts, itemTexts_eq_map,
      List.map_map]
    refine .array (by simpa using hparts.relationships row hrow) fun item hitem => ?_
    obtain ⟨relationship, hmem, rfl⟩ := List.mem_map.mp hitem
    exact hrelated row hrow relationship hmem

/-- An object in ascending order is determined by its traces if its values are. -/
theorem FieldOrder.traceable_object {fields : List (String × Json)} (hne : fields ≠ [])
    (hnodup : (fields.map Prod.fst).Nodup) (hnames : ∀ field ∈ fields, IsPartName field.1)
    (hvalues : ∀ field ∈ fields, Traceable (texts field.2)) :
    Traceable (texts (FieldOrder.ascending.object fields)) := by
  -- the fields are put in ascending order, which changes neither names nor values
  have hperm := Ascending.ofPairs_perm hnodup
  rw [FieldOrder.object, texts, fieldTexts_eq_map]
  refine .object ?_ ?_ ?_ ?_
  · intro hnil
    rw [List.map_eq_nil_iff] at hnil
    exact hne (List.nil_perm.mp (hnil ▸ hperm))
  · rw [List.map_map]
    exact (hperm.map Prod.fst).nodup_iff.mpr hnodup
  · intro field hfield
    obtain ⟨source, hsource, rfl⟩ := List.mem_map.mp hfield
    exact hnames source (hperm.mem_iff.mp hsource)
  · intro field hfield
    obtain ⟨source, hsource, rfl⟩ := List.mem_map.mp hfield
    exact hvalues source (hperm.mem_iff.mp hsource)

theorem isPartName_of_mem {name : String}
    (h : name ∈ ["name", "columns", "filters", "relationships"]) : IsPartName name := by
  simp only [List.mem_cons, List.not_mem_nil, or_false] at h
  rcases h with rfl | rfl | rfl | rfl
  · exact ⟨by decide, by decide, by decide, by decide⟩
  · exact ⟨by decide, by decide, by decide, by decide⟩
  · exact ⟨by decide, by decide, by decide, by decide⟩
  · exact ⟨by decide, by decide, by decide, by decide⟩

/-- A relationship is determined by its traces if no part and no group in it is empty. -/
theorem Relationship.traceable {relationship : Relationship}
    (h : ∀ scope ∈ relationship.scopes, scope.PartsFilled ∧ scope.GroupsFilled) :
    Traceable (texts (relationship.toJson .ascending)) := by
  induction relationship using Relationship.induction with
  | compact relationship text htext =>
      rw [toJson_of_compact? htext]
      exact .text text
  | nested name query ih =>
      rw [scopes_nested] at h
      obtain ⟨hparts, hgroups⟩ := h query (Query.mem_scopes.mpr (.inl rfl))
      have hrelated : ∀ row ∈ query.relationships, ∀ relationship ∈ row,
          Traceable (texts (relationship.toJson .ascending)) := fun row hrow relationship hmem =>
        ih row hrow relationship hmem fun scope hscope =>
          h scope (Query.mem_scopes.mpr (.inr ⟨row, hrow, relationship, hmem, hscope⟩))
      rw [toJson]
      refine FieldOrder.traceable_object (List.cons_ne_nil _ _) (Query.nodup_fields name query)
        (List.forall_mem_cons.mpr ⟨isPartName_of_mem List.mem_cons_self, fun field hfield => ?_⟩)
        (List.forall_mem_cons.mpr ⟨.text name, fun field hfield => ?_⟩)
      · exact isPartName_of_mem (List.mem_cons_of_mem _ (Query.of_mem_fields hfield).1)
      · exact Query.traceable_part hparts hgroups hrelated (Query.of_mem_fields hfield).2

/-! ## Parameters -/

/-- Parameter names that the places in a query string can be told from. -/
def Names.NoBracket (names : Names) : Prop :=
  ∀ name ∈ [names.columns, names.filters, names.relationships], '[' ∉ name.toList

/-- No filter group in the query is empty, at any depth. -/
def Query.NoEmptyGroup (query : Query) : Prop := ∀ scope ∈ query.scopes, scope.GroupsFilled

/-- The parameters of a built query are determined by their traces. -/
theorem QueryOp.traceable_params (names : Names) {ops : List QueryOp}
    (h : (run ops).build.NoEmptyGroup) :
    ∀ param ∈ (run ops).build.toParams names, Traceable (texts param.2) := by
  have hscopes : ∀ scope ∈ (run ops).build.scopes, scope.PartsFilled ∧ scope.GroupsFilled :=
    fun scope hscope => ⟨partsFilled_of_mem_scopes hscope, h scope hscope⟩
  obtain ⟨hparts, hgroups⟩ := hscopes _ (Query.mem_scopes.mpr (.inl rfl))
  intro param hparam
  refine Query.traceable_part hparts hgroups (fun row hrow relationship hmem => ?_)
    (Query.of_mem_toParams hparam).2
  exact Relationship.traceable fun scope hscope =>
    hscopes scope (Query.mem_scopes.mpr (.inr ⟨row, hrow, relationship, hmem, hscope⟩))

/-- The traces of traceable parameters can be read from the query string. -/
theorem fieldTraces_eq_of_ofParams_eq {params params' : Params}
    (hnames : ∀ param ∈ params, '[' ∉ param.1.toList ∧ Traceable (texts param.2))
    (hnames' : ∀ param ∈ params', '[' ∉ param.1.toList ∧ Traceable (texts param.2))
    (h : ofParams params = ofParams params') : fieldTraces params = fieldTraces params' := by
  have hpairs : paramLeaves params = paramLeaves params' := by
    have hread := congrArg pairs? h
    rw [ofParams, ofParams, pairs?_ofPairs, pairs?_ofPairs] at hread
    exact Option.some.inj hread
  rw [paramLeaves_eq, paramLeaves_eq] at hpairs
  -- the steps are read from the place of every trace
  have hback : ∀ params : Params,
      (∀ param ∈ params, '[' ∉ param.1.toList ∧ Traceable (texts param.2)) →
      ((fieldTraces params).map Trace.pair).map (fun pair => Trace.mk (stepsOf pair.1) pair.2)
        = fieldTraces params := by
    intro params hall
    rw [List.map_map]
    refine (List.map_congr_left fun trace htrace => ?_).trans (List.map_id _)
    rw [fieldTraces_eq] at htrace
    obtain ⟨group, hgroup, below, hbelow, rfl⟩ := mem_gather.mp htrace
    obtain ⟨param, hparam, rfl⟩ := List.mem_map.mp hgroup
    obtain ⟨hname, hvalue⟩ := hall param hparam
    have hsteps := hvalue.bracket_notMem (by rwa [traces_texts])
    exact congrArg (Trace.mk · below.text)
      (stepsOf_place (List.cons_ne_nil _ _) (List.forall_mem_cons.mpr ⟨hname, hsteps⟩))
  rw [← hback params hnames, hpairs, hback params' hnames']

/-- Traceable parameters are determined by their traces, up to the texts of their scalars. -/
theorem fieldTexts_eq_of_fieldTraces_eq {params params' : Params} (hkeys : Ascending.Keys params)
    (hkeys' : Ascending.Keys params') (hvalues : ∀ param ∈ params, Traceable (texts param.2))
    (hvalues' : ∀ param ∈ params', Traceable (texts param.2))
    (h : fieldTraces params = fieldTraces params') : fieldTexts params = fieldTexts params' := by
  have hnodup : ∀ {params : Params}, Ascending.Keys params →
      ((fieldTexts params).map Prod.fst).Nodup := by
    intro params hkeys
    rw [fieldTexts_eq_map, List.map_map]
    exact Ascending.nodup_of_ascending hkeys
  have htraceable : ∀ {params : Params}, (∀ param ∈ params, Traceable (texts param.2)) →
      ∀ field ∈ fieldTexts params, Traceable field.2 := by
    intro params hall field hfield
    rw [fieldTexts_eq_map] at hfield
    obtain ⟨param, hparam, rfl⟩ := List.mem_map.mp hfield
    exact hall param hparam
  refine fields_eq_of_fieldTraces_eq (hnodup hkeys) (hnodup hkeys') (htraceable hvalues)
    (htraceable hvalues') ?_
  rw [fieldTraces_fieldTexts, fieldTraces_fieldTexts, h]

/-- **A query string tells a built query.** Two queries that programs build without an empty group
at any depth have the same query string exactly when their parameters are the same, once every
scalar in them is replaced by its text. -/
theorem QueryString.ofParams_eq_iff {names : Names} (hnames : names.NoBracket)
    {ops ops' : List QueryOp} (h : (QueryOp.run ops).build.NoEmptyGroup)
    (h' : (QueryOp.run ops').build.NoEmptyGroup) :
    ofParams ((QueryOp.run ops).build.toParams names)
        = ofParams ((QueryOp.run ops').build.toParams names)
      ↔ fieldTexts ((QueryOp.run ops).build.toParams names)
        = fieldTexts ((QueryOp.run ops').build.toParams names) := by
  have hname : ∀ {ops : List QueryOp}, ∀ param ∈ (QueryOp.run ops).build.toParams names,
      '[' ∉ param.1.toList :=
    fun param hparam => hnames param.1 (Query.of_mem_toParams hparam).1
  have hvalue := @QueryOp.traceable_params names ops h
  have hvalue' := @QueryOp.traceable_params names ops' h'
  constructor
  · -- the string gives the traces, and these the texts
    intro hstring
    have htraces := fieldTraces_eq_of_ofParams_eq
      (fun param hparam => ⟨hname param hparam, hvalue param hparam⟩)
      (fun param hparam => ⟨hname param hparam, hvalue' param hparam⟩) hstring
    exact fieldTexts_eq_of_fieldTraces_eq (Query.keys_toParams names _)
      (Query.keys_toParams names _) hvalue hvalue' htraces
  · -- equal texts have equal traces, which are all that is written
    intro htexts
    rw [ofParams, ofParams, paramLeaves_eq, paramLeaves_eq, ← fieldTraces_fieldTexts, htexts,
      fieldTraces_fieldTexts]

/-- The number one and its text are sent alike, below a group of a related resource too. -/
theorem QueryString.ofParams_eq_iff_number :
    let ask (arg : Arg) : List QueryOp := [.relatedQuery "a" [.filter (.group .or
      [.condition .or .comparison [.string "b&[", arg], .condition .and .isNull []])]]
    fieldTexts ((QueryOp.run (ask (.int 1))).build.toParams .standard)
      = fieldTexts ((QueryOp.run (ask (.string "1"))).build.toParams .standard) := by
  intro ask
  have hnames : Names.standard.NoBracket := by
    unfold Names.NoBracket
    decide
  have hnumber : (QueryOp.run (ask (.int 1))).build.NoEmptyGroup := by
    unfold Query.NoEmptyGroup Query.GroupsFilled
    decide +kernel
  have htext : (QueryOp.run (ask (.string "1"))).build.NoEmptyGroup := by
    unfold Query.NoEmptyGroup Query.GroupsFilled
    decide +kernel
  -- the number and its text are sent alike
  have hleaves : paramLeaves ((QueryOp.run (ask (.int 1))).build.toParams .standard)
      = paramLeaves ((QueryOp.run (ask (.string "1"))).build.toParams .standard) := by
    decide +kernel
  exact (ofParams_eq_iff hnames hnumber htext).mp (congrArg ofPairs hleaves)

end ResourceQuery
