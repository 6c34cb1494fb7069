import ResourceQuery.Proofs.Json.Decoding
import ResourceQuery.Proofs.Query.Depth

/-!
# Filters that were written

Reading a filter that was written gives that filter, unless a float in it was written as null
(`FilterNode.filterOfJson_written_iff`). No tag tells joins, conditions and groups apart, so the
proofs show for each of them that the readers tried before its own refuse what it is written as.
-/

set_option autoImplicit false

namespace ResourceQuery

variable {order : FieldOrder}

/-! ## Arguments -/

/-- An argument that is not written as null. -/
def Arg.IsFinite : Arg → Prop
  | .float value => value.isFinite = true
  | _ => True

theorem fitsInt64_toInt (value : Int64) : fitsInt64 value.toInt = true := by
  have hlow := Int64.le_toInt value
  have hhigh := Int64.toInt_lt value
  simp only [fitsInt64, Bool.and_eq_true, decide_eq_true_eq]
  omega

theorem Arg.ofJson_toJson_iff {arg back : Arg} :
    Arg.ofJson arg.toJson = .ok back ↔ back = arg ∧ arg.IsFinite := by
  unfold Arg.ofJson
  cases arg with
  | bool value => simp [toJson, ofJson?, IsFinite, eq_comm]
  | int value => simp [toJson, ofJson?, IsFinite, fitsInt64_toInt, eq_comm]
  | float value =>
      by_cases hfinite : value.isFinite
      · simp [toJson, ofJson?, IsFinite, hfinite, eq_comm]
      · simp [toJson, ofJson?, IsFinite, hfinite]
  | string value => simp [toJson, ofJson?, IsFinite, eq_comm]

theorem Condition.argsOfJson_written_iff {args back : List Arg} :
    argsOfJson (.array (args.map Arg.toJson)) = .ok back
      ↔ back = args ∧ ∀ arg ∈ args, arg.IsFinite := by
  simp only [argsOfJson, Json.decodeList_eq_ok_iff, Json.array.injEq, exists_eq_left',
    List.forall₂_map_left_iff, Arg.ofJson_toJson_iff, forall₂_eq_and_iff]

/-! ## Conditions -/

theorem FilterKind.ofJson_name (kind : FilterKind) :
    FilterKind.ofJson (.string kind.name) = .ok kind := by
  cases kind <;> rfl

theorem Join.ofJson_name (how : Join) : Join.ofJson (.string how.name) = .ok how := by
  cases how <;> rfl

theorem Condition.toJson_eq (condition : Condition) :
    ∃ fields, condition.toJson order = .object fields ∧ fields.length = 2
      ∧ Ascending.get? "args" fields = some (.array (condition.args.map Arg.toJson))
      ∧ Ascending.get? "type" fields = some (.string condition.kind.name) := by
  cases order with
  | declared => exact ⟨_, rfl, rfl, by simp [Ascending.get?], by simp [Ascending.get?]⟩
  | ascending =>
      have hlt : "args" < "type" := by decide
      refine ⟨_, rfl, ?_, ?_, ?_⟩
      · simp [Ascending.ofPairs, Ascending.insert, hlt]
      · simp [Ascending.get?_ofPairs, Ascending.get?]
      · simp [Ascending.get?_ofPairs, Ascending.get?]

theorem Condition.ofJson_toJson_iff {condition back : Condition} :
    Condition.ofJson (condition.toJson order) = .ok back
      ↔ back = condition ∧ ∀ arg ∈ condition.args, arg.IsFinite := by
  obtain ⟨fields, hfields, -, hargs, htype⟩ := @Condition.toJson_eq order condition
  rw [hfields]
  simp only [ofJson, ofFields, bind_eq_ok_iff, Json.decodeField?, hargs, htype, map_eq_ok_iff,
    argsOfJson_written_iff, FilterKind.ofJson_name]
  constructor
  · rintro ⟨_, ⟨args, ⟨rfl, hfinite⟩, rfl⟩, _, ⟨kind, hkind, rfl⟩, h⟩
    cases hkind
    cases h
    exact ⟨rfl, hfinite⟩
  · rintro ⟨rfl, hfinite⟩
    exact ⟨_, ⟨_, ⟨rfl, hfinite⟩, rfl⟩, _, ⟨_, rfl, rfl⟩, rfl⟩

/-! ## Nodes

Two things keep the readers apart. An object that names a kind or a join has one field, and a
condition is written with two; and no join has the name of a kind. -/

theorem decodeName_object_ne_ok {α : Type} {choices : List α} {name : α → String}
    {fields : List (String × Json)} (h : fields.length ≠ 1) (value : α) :
    Json.decodeName choices name (.object fields) ≠ .ok value := by
  match fields, h with
  | [], _ => simp [Json.decodeName]
  | _ :: _ :: _, _ => simp [Json.decodeName]

/-- No written node can be read as a kind. -/
theorem FilterKind.ofJson_node_ne_ok (node : FilterNode) (kind : FilterKind) :
    FilterKind.ofJson (node.toJson order) ≠ .ok kind := by
  cases node with
  | join how => cases how <;> simp [FilterNode.toJson, ofJson, Join.name, Json.decodeName,
      Json.decodeName.pick, all, name]
  | condition asked =>
      obtain ⟨fields, hfields, hlength, -, -⟩ := @Condition.toJson_eq order asked
      rw [FilterNode.toJson, hfields]
      exact decodeName_object_ne_ok (by omega) kind
  | group nodes => simp [FilterNode.toJson, ofJson, Json.decodeName]

/-- No written group can be read as a condition. -/
theorem Condition.ofItems_nodes_ne_ok (nodes : List FilterNode) (condition : Condition) :
    Condition.ofItems (nodes.map (FilterNode.toJson order)) ≠ .ok condition := by
  intro h
  match nodes, h with
  | [], h => simp [ofItems] at h
  | [node], h =>
      simp only [List.map_cons, List.map_nil, ofItems, bind_eq_ok_iff] at h
      obtain ⟨kind, hkind, -⟩ := h
      exact FilterKind.ofJson_node_ne_ok node kind hkind
  | node :: _ :: _, h =>
      simp only [List.map_cons, ofItems, bind_eq_ok_iff] at h
      obtain ⟨kind, hkind, -⟩ := h
      exact FilterKind.ofJson_node_ne_ok node kind hkind

namespace FilterNode

theorem leafOfJson?_group (nodes : List FilterNode) :
    leafOfJson? (.array (nodes.map (toJson order))) = none := by
  have hcondition : ∀ condition, Condition.ofJson (.array (nodes.map (toJson order)))
      ≠ .ok condition := Condition.ofItems_nodes_ne_ok nodes
  cases hread : Condition.ofJson (.array (nodes.map (toJson order))) with
  | ok condition => exact absurd hread (hcondition condition)
  | error error => simp [leafOfJson?, Join.ofJson, Json.decodeName, hread]

theorem listOfJson?_eq_some_iff {items : List Json} {nodes : List FilterNode} :
    listOfJson? items = some nodes
      ↔ List.Forall₂ (fun item node => ofJson? item = some node) items nodes := by
  induction items generalizing nodes with
  | nil => simp [listOfJson?, eq_comm]
  | cons item rest ih =>
      rw [List.forall₂_cons_left_iff]
      simp only [← ih]
      cases hitem : ofJson? item with
      | none => simp [listOfJson?, hitem]
      | some node =>
          cases hrest : listOfJson? rest with
          | none => simp [listOfJson?, hitem, hrest]
          | some others => simp [listOfJson?, hitem, hrest, eq_comm]

/-- What is written for a node reads as that node, if its floats are finite. -/
theorem ofJson?_toJson_iff {node back : FilterNode} :
    ofJson? (node.toJson order) = some back ↔ back = node ∧ ∀ arg ∈ node.args, arg.IsFinite := by
  induction node using FilterNode.induction generalizing back with
  | join how =>
      simp [toJson, ofJson?, leafOfJson?, Join.ofJson_name, args, eq_comm]
  | condition asked =>
      -- an object with two fields is no join, so the reader of conditions gets it
      obtain ⟨fields, hfields, hlength, -⟩ := @Condition.toJson_eq order asked
      have hjoin : ∀ how, Join.ofJson (asked.toJson order) ≠ .ok how := by
        rw [hfields]
        exact decodeName_object_ne_ok (by omega)
      have hread : ofJson? (asked.toJson order) = leafOfJson? (asked.toJson order) := by
        rw [hfields]
        rfl
      rw [toJson, hread, leafOfJson?]
      cases hjoined : Join.ofJson (asked.toJson order) with
      | ok how => exact absurd hjoined (hjoin how)
      | error _ =>
          cases hcondition : Condition.ofJson (asked.toJson order) with
          | ok condition =>
              obtain ⟨rfl, hfinite⟩ := Condition.ofJson_toJson_iff.mp hcondition
              simp only [Option.some.injEq, args]
              exact ⟨fun h => ⟨h.symm, hfinite⟩, fun h => h.1.symm⟩
          | error _ =>
              have hnot : ¬∀ arg ∈ asked.args, arg.IsFinite := fun hfinite => by
                rw [Condition.ofJson_toJson_iff.mpr ⟨rfl, hfinite⟩] at hcondition
                cases hcondition
              simpa [args] using fun _ => not_forall.mp hnot
  | group nodes ih =>
      -- no leaf is read from a row of nodes, so it is read node by node
      rw [toJson, listToJson_eq_map, ofJson?, leafOfJson?_group]
      simp only [Option.map_eq_some_iff, listOfJson?_eq_some_iff, List.forall₂_map_left_iff]
      simp only [forall₂_congr_of_mem fun node hnode back => @ih node hnode back,
        forall₂_eq_and_iff, args, mem_listArgs]
      constructor
      · rintro ⟨_, ⟨rfl, hfinite⟩, rfl⟩
        exact ⟨rfl, fun arg ⟨node, hnode, harg⟩ => hfinite node hnode arg harg⟩
      · rintro ⟨rfl, hfinite⟩
        exact ⟨nodes, ⟨rfl, fun node hnode arg harg => hfinite arg ⟨node, hnode, harg⟩⟩, rfl⟩

/-- What is written for a filter reads as that filter, if its floats are finite. -/
theorem filterOfJson_written_iff {nodes back : List FilterNode} :
    filterOfJson (.array (listToJson order nodes)) = .ok back
      ↔ back = nodes ∧ ∀ arg ∈ listArgs nodes, arg.IsFinite := by
  -- a filter is read as a group of its nodes would be
  have hgroup : ofJson? ((FilterNode.group nodes).toJson order) = some (.group back)
      ↔ listOfJson? (listToJson order nodes) = some back := by
    rw [toJson, ofJson?, listToJson_eq_map, leafOfJson?_group]
    simp
  have hfilter : filterOfJson (.array (listToJson order nodes)) = .ok back
      ↔ listOfJson? (listToJson order nodes) = some back := by
    rw [filterOfJson]
    cases listOfJson? (listToJson order nodes) <;> simp
  rw [hfilter, ← hgroup, ofJson?_toJson_iff, group.injEq, args]

end FilterNode

end ResourceQuery
