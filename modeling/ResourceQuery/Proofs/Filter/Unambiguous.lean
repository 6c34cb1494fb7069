import ResourceQuery.Proofs.Filter.ReadBack
import ResourceQuery.Proofs.Json.Legible

/-!
# Filters are read in one way

Nothing in a filter tells joins, conditions and groups apart but their form, so an element is read
by trying one form after the other. Two things keep the forms apart. A condition that is an object
has two fields, and a join that is an object has one; and a condition that is an array starts with a
kind, which is no element of a filter in any form. `FilterNode.IsReadFrom` says what an element is
read from without an order of the forms, and `FilterNode.ofJsonIn?` reads with the forms in any
order. Main statement: all orders give the same (`FilterNode.ofJson_unambiguous`).
-/

set_option autoImplicit false

namespace ResourceQuery

/-! ## Forms -/

/-- The forms of an element of a filter. -/
inductive NodeForm
  | join
  | condition
  | group
  deriving DecidableEq, Repr

/-- A value has a form when it is read by the reader of that form. -/
def NodeForm.Accepts : NodeForm → Json → Prop
  | .join, value => ∃ how, Join.ofJson value = .ok how
  | .condition, value => ∃ asked, Condition.ofJson value = .ok asked
  | .group, value => ∃ nodes, FilterNode.filterOfJson value = .ok nodes

namespace FilterNode

def form : FilterNode → NodeForm
  | .join _ => .join
  | .condition _ => .condition
  | .group _ => .group

/-- What an element is read from in its own form. -/
def IsReadFrom : FilterNode → Json → Prop
  | .join how, value => Join.ofJson value = .ok how
  | .condition asked, value => Condition.ofJson value = .ok asked
  | .group nodes, value => filterOfJson value = .ok nodes

/-- The element that a value is in a form, where `nodes?` are the elements that its items are. -/
def inForm? (nodes? : Option (List FilterNode)) (value : Json) : NodeForm → Option FilterNode
  | .join => (Join.ofJson value).toOption.map .join
  | .condition => (Condition.ofJson value).toOption.map .condition
  | .group => nodes?.map .group

mutual

/-- An element of a filter in the first of the given forms that it has, at every depth. -/
def ofJsonIn? (order : List NodeForm) : Json → Option FilterNode
  | .array items => order.findSome? (inForm? (listOfJsonIn? order items) (.array items))
  | other => order.findSome? (inForm? none other)

/-- The elements of a filter, each in the first of the given forms that it has. -/
def listOfJsonIn? (order : List NodeForm) : List Json → Option (List FilterNode)
  | [] => some []
  | item :: rest => do
    let node ← ofJsonIn? order item
    let nodes ← listOfJsonIn? order rest
    return node :: nodes

end

theorem accepts_iff {form : NodeForm} {value : Json} :
    form.Accepts value ↔ ∃ node : FilterNode, node.form = form ∧ node.IsReadFrom value := by
  constructor
  · intro h
    cases form with
    | join => exact h.imp' .join fun _ hread => ⟨rfl, hread⟩
    | condition => exact h.imp' .condition fun _ hread => ⟨rfl, hread⟩
    | group => exact h.imp' .group fun _ hread => ⟨rfl, hread⟩
  · rintro ⟨node, rfl, hread⟩
    cases node with
    | join how => exact ⟨how, hread⟩
    | condition asked => exact ⟨asked, hread⟩
    | group nodes => exact ⟨nodes, hread⟩

end FilterNode

/-! ## Names -/

theorem FilterKind.ofJson_eq_ok_iff {value : Json} {kind : FilterKind} :
    FilterKind.ofJson value = .ok kind
      ↔ value = .string kind.name ∨ value = .object [(kind.name, .null)] := by
  have hfind : ∀ text, FilterKind.all.find? (FilterKind.name · = text) = some kind
      ↔ text = kind.name := by
    intro text
    constructor
    · intro hfound
      have hname := List.find?_some hfound
      exact (of_decide_eq_true hname).symm
    · rintro rfl
      cases kind <;> rfl
  rw [ofJson, Json.decodeName_eq_ok_iff]
  simp only [hfind]
  constructor
  · rintro ⟨_, hvalue, rfl⟩
    exact hvalue
  · intro hvalue
    exact ⟨_, hvalue, rfl⟩

/-- A join is a text, or an object with one field. -/
theorem Join.ofJson_shape {value : Json} {how : Join} (h : Join.ofJson value = .ok how) :
    (∃ text, value = .string text) ∨ ∃ field, value = .object [field] := by
  obtain ⟨text, hvalue, -⟩ := Json.decodeName_eq_ok_iff.mp h
  rcases hvalue with rfl | rfl
  · exact .inl ⟨text, rfl⟩
  · exact .inr ⟨(text, .null), rfl⟩

/-! ## Conditions -/

namespace Condition

/-- A condition that is an array: its kind by name and the array of its arguments. -/
def IsRow (asked : Condition) (items : List Json) : Prop :=
  ∃ kind args, items = [kind, .array args]
    ∧ (kind = .string asked.kind.name ∨ kind = .object [(asked.kind.name, .null)])
    ∧ List.Forall₂ (fun item arg => Arg.ofJson item = .ok arg) args asked.args

theorem ofItems_eq_ok_iff {items : List Json} {asked : Condition} :
    ofItems items = .ok asked ↔ asked.IsRow items := by
  match items with
  | [] => simp [ofItems, IsRow]
  | [first] =>
      have hfail : ∀ error : DecodeError, (throw error : Decoded Condition) ≠ .ok asked := by
        intro error h
        cases h
      simp [ofItems, bind_eq_ok_iff, IsRow, hfail]
  | first :: second :: third :: more =>
      simp [ofItems, bind_eq_ok_iff, IsRow]
  | [first, second] =>
      simp only [ofItems, bind_eq_ok_iff, FilterKind.ofJson_eq_ok_iff, argsOfJson,
        Json.decodeList_eq_ok_iff, List.isEmpty_nil, if_true, pure_eq_ok_iff]
      constructor
      · rintro ⟨kind, hkind, _, ⟨args, rfl, hargs⟩, rfl⟩
        exact ⟨first, args, rfl, hkind, hargs⟩
      · rintro ⟨kind, args, hitems, hkind, hargs⟩
        cases hitems
        exact ⟨asked.kind, hkind, asked.args, ⟨args, rfl, hargs⟩, rfl⟩

/-- A condition that is an object has a kind and arguments, so it has not just one field. -/
theorem length_ne_one_of_ofFields {fields : List (String × Json)} {asked : Condition}
    (h : ofFields fields = .ok asked) : fields.length ≠ 1 := by
  simp only [ofFields, bind_eq_ok_iff] at h
  obtain ⟨args, hargs, kind, hkind, hboth⟩ := h
  obtain ⟨kind, rfl⟩ : ∃ found, kind = some found := by
    cases kind with
    | none => cases hboth
    | some found => exact ⟨found, rfl⟩
  obtain ⟨args, rfl⟩ : ∃ found, args = some found := by
    cases args with
    | none => cases hboth
    | some found => exact ⟨found, rfl⟩
  obtain ⟨argsValue, hargsField, -⟩ := Json.exists_of_decodeField? hargs
  obtain ⟨kindValue, hkindField, -⟩ := Json.exists_of_decodeField? hkind
  intro hone
  obtain ⟨field, rfl⟩ := List.length_eq_one_iff.mp hone
  -- one field would have both names
  have hsame : ("args", argsValue) = ("type", kindValue) :=
    (List.mem_singleton.mp hargsField).trans (List.mem_singleton.mp hkindField).symm
  exact absurd (congrArg Prod.fst hsame) (by simp)

end Condition

/-! ## One form at most -/

namespace FilterNode

variable {value : Json}

theorem filterOfJson_eq_ok_iff {nodes : List FilterNode} :
    filterOfJson value = .ok nodes
      ↔ ∃ items, value = .array items ∧ listOfJson? items = some nodes := by
  cases value with
  | array items => cases hnodes : listOfJson? items <;> simp [filterOfJson, hnodes]
  | _ => simp [filterOfJson]

theorem listOfJson?_eq_none_iff {items : List Json} :
    listOfJson? items = none ↔ ∃ item ∈ items, ofJson? item = none := by
  have hsome : (∃ nodes, listOfJson? items = some nodes)
      ↔ ∀ item ∈ items, ∃ node, ofJson? item = some node := by
    simp only [listOfJson?_eq_some_iff, exists_forall₂_iff]
  rw [← not_iff_not, ← Ne, Option.ne_none_iff_exists', hsome]
  constructor
  · rintro hall ⟨item, hitem, hnone⟩
    obtain ⟨node, hnode⟩ := hall item hitem
    rw [hnone] at hnode
    cases hnode
  · intro hnot item hitem
    exact Option.ne_none_iff_exists'.mp fun hnone => hnot ⟨item, hitem, hnone⟩

/-- No element of a filter is read from a kind. -/
theorem ofJson?_of_kind {kind : FilterKind} (h : FilterKind.ofJson value = .ok kind) :
    ofJson? value = none := by
  rcases FilterKind.ofJson_eq_ok_iff.mp h with rfl | rfl
  · cases kind <;> rfl
  · cases kind <;> rfl

theorem not_condition_of_join {how : Join} {asked : Condition} (h : Join.ofJson value = .ok how) :
    Condition.ofJson value ≠ .ok asked := by
  intro h'
  rcases Join.ofJson_shape h with ⟨text, rfl⟩ | ⟨field, rfl⟩
  · cases h'
  · exact Condition.length_ne_one_of_ofFields h' rfl

theorem not_group_of_join {how : Join} {nodes : List FilterNode} (h : Join.ofJson value = .ok how) :
    filterOfJson value ≠ .ok nodes := by
  intro h'
  obtain ⟨items, rfl, -⟩ := filterOfJson_eq_ok_iff.mp h'
  rcases Join.ofJson_shape h with ⟨text, htext⟩ | ⟨field, hfield⟩
  · cases htext
  · cases hfield

/-- The kind at the head of a condition keeps it from being a group. -/
theorem not_group_of_condition {asked : Condition} {nodes : List FilterNode}
    (h : Condition.ofJson value = .ok asked) : filterOfJson value ≠ .ok nodes := by
  intro h'
  obtain ⟨items, rfl, hnodes⟩ := filterOfJson_eq_ok_iff.mp h'
  obtain ⟨kind, args, rfl, hkind, -⟩ := Condition.ofItems_eq_ok_iff.mp h
  have hnone : ofJson? kind = none := ofJson?_of_kind (FilterKind.ofJson_eq_ok_iff.mpr hkind)
  rw [listOfJson?, hnone] at hnodes
  cases hnodes

/-- A value is read as one element at most. -/
theorem eq_of_isReadFrom {node node' : FilterNode} (h : node.IsReadFrom value)
    (h' : node'.IsReadFrom value) : node = node' := by
  -- two forms never meet in one value, and within a form reading is a function
  cases node with
  | join how =>
      cases node' with
      | join how' => rw [Except.ok.inj (h.symm.trans h')]
      | condition asked => exact absurd h' (not_condition_of_join h)
      | group nodes => exact absurd h' (not_group_of_join h)
  | condition asked =>
      cases node' with
      | join how => exact absurd h (not_condition_of_join h')
      | condition asked' => rw [Except.ok.inj (h.symm.trans h')]
      | group nodes => exact absurd h' (not_group_of_condition h)
  | group nodes =>
      cases node' with
      | join how => exact absurd h (not_group_of_join h')
      | condition asked => exact absurd h (not_group_of_condition h')
      | group nodes' => rw [Except.ok.inj (h.symm.trans h')]

/-! ## Any order -/

/-- The elements that the items of a value are, if it is an array of elements. -/
def nodesOf? (value : Json) : Option (List FilterNode) := (filterOfJson value).toOption

theorem toOption_eq_some_iff {α : Type} {result : Decoded α} {a : α} :
    result.toOption = some a ↔ result = .ok a := by
  cases result <;> simp [Except.toOption]

theorem inForm?_eq_some_iff {form : NodeForm} {node : FilterNode} :
    inForm? (nodesOf? value) value form = some node
      ↔ node.form = form ∧ node.IsReadFrom value := by
  cases form with
  | join => cases node <;> simp [inForm?, toOption_eq_some_iff, FilterNode.form, IsReadFrom]
  | condition => cases node <;> simp [inForm?, toOption_eq_some_iff, FilterNode.form, IsReadFrom]
  | group =>
      cases node <;> simp [inForm?, nodesOf?, toOption_eq_some_iff, FilterNode.form, IsReadFrom]

/-- The first form that a value has is its only one, so an order that tries them all finds it. -/
theorem findSome?_inForm?_eq_some_iff {order : List NodeForm} (h : ∀ form, form ∈ order)
    {node : FilterNode} :
    order.findSome? (inForm? (nodesOf? value) value) = some node ↔ node.IsReadFrom value := by
  constructor
  · intro hfound
    obtain ⟨form, -, hform⟩ := List.exists_of_findSome?_eq_some hfound
    exact (inForm?_eq_some_iff.mp hform).2
  · intro hread
    have hform : inForm? (nodesOf? value) value node.form = some node :=
      inForm?_eq_some_iff.mpr ⟨rfl, hread⟩
    cases hfound : order.findSome? (inForm? (nodesOf? value) value) with
    | none =>
        rw [List.findSome?_eq_none_iff.mp hfound node.form (h node.form)] at hform
        cases hform
    -- whatever was found first is read from the value too
    | some other =>
        obtain ⟨form, -, hother⟩ := List.exists_of_findSome?_eq_some hfound
        rw [eq_of_isReadFrom (inForm?_eq_some_iff.mp hother).2 hread]

/-- The reader tries joins, then conditions, then groups. -/
theorem ofJson?_eq_findSome? (value : Json) :
    ofJson? value
      = [NodeForm.join, .condition, .group].findSome? (inForm? (nodesOf? value) value) := by
  -- the two forms that are no groups
  have hleaf : leafOfJson? value
      = [NodeForm.join, .condition].findSome? (inForm? (nodesOf? value) value) := by
    rw [leafOfJson?]
    cases hjoin : Join.ofJson value with
    | ok how => simp [inForm?, hjoin, Except.toOption]
    | error _ =>
        cases hcondition : Condition.ofJson value with
        | ok asked => simp [inForm?, hjoin, hcondition, Except.toOption]
        | error _ => simp [inForm?, hjoin, hcondition, Except.toOption]
  -- a group is tried when they fail
  have hgroup : ofJson? value = (leafOfJson? value).or ((nodesOf? value).map .group) := by
    cases value with
    | array items =>
        rw [ofJson?, nodesOf?, filterOfJson]
        cases leafOfJson? (.array items) with
        | some leaf => rfl
        | none => cases listOfJson? items <;> rfl
    | _ => exact (Option.or_none).symm
  have hthird : inForm? (nodesOf? value) value .group = (nodesOf? value).map .group := rfl
  rw [hgroup, hleaf, ← hthird]
  simp only [List.findSome?_cons, List.findSome?_nil]
  cases inForm? (nodesOf? value) value .join with
  | some node => rfl
  | none =>
      cases inForm? (nodesOf? value) value .condition with
      | some node => rfl
      | none => cases inForm? (nodesOf? value) value .group <;> rfl

theorem ofJson?_eq_some_iff {node : FilterNode} :
    ofJson? value = some node ↔ node.IsReadFrom value := by
  rw [ofJson?_eq_findSome?]
  exact findSome?_inForm?_eq_some_iff fun form => by cases form <;> decide

/-! ## Arrays -/

section Arrays

variable {items : List Json}

theorem ofJson?_eq_condition_iff {asked : Condition} :
    ofJson? (.array items) = some (.condition asked) ↔ asked.IsRow items := by
  rw [ofJson?_eq_some_iff]
  exact Condition.ofItems_eq_ok_iff

theorem ofJson?_eq_group_iff {nodes : List FilterNode} :
    ofJson? (.array items) = some (.group nodes)
      ↔ List.Forall₂ (fun item node => ofJson? item = some node) items nodes := by
  rw [ofJson?_eq_some_iff, ← listOfJson?_eq_some_iff, IsReadFrom, filterOfJson_eq_ok_iff]
  simp

/-- An array that is no condition is no element at all if one of its items is none. -/
theorem ofJson?_array_eq_none (hrow : ∀ asked : Condition, ¬ asked.IsRow items)
    (hitem : ∃ item ∈ items, ofJson? item = none) : ofJson? (.array items) = none := by
  cases hread : ofJson? (.array items) with
  | none => rfl
  | some node =>
      cases node with
      | join how => cases ofJson?_eq_some_iff.mp hread
      | condition asked => exact absurd (ofJson?_eq_condition_iff.mp hread) (hrow asked)
      | group nodes =>
          have hnodes : listOfJson? items = some nodes :=
            listOfJson?_eq_some_iff.mpr (ofJson?_eq_group_iff.mp hread)
          rw [listOfJson?_eq_none_iff.mpr hitem] at hnodes
          cases hnodes

end Arrays

/-! ## Orders at every depth -/

theorem listOfJsonIn?_eq {order : List NodeForm} {items : List Json}
    (h : ∀ item ∈ items, ofJsonIn? order item = ofJson? item) :
    listOfJsonIn? order items = listOfJson? items := by
  induction items with
  | nil => rw [listOfJsonIn?, listOfJson?]
  | cons item rest ih =>
      obtain ⟨hitem, hrest⟩ := List.forall_mem_cons.mp h
      rw [listOfJsonIn?, listOfJson?, hitem, ih hrest]
      cases ofJson? item with
      | none => rfl
      | some node => cases listOfJson? rest <;> rfl

/-- At every depth, an order that tries all forms gives what the reader gives. -/
theorem ofJsonIn?_eq {order : List NodeForm} (h : ∀ form, form ∈ order) (value : Json) :
    ofJsonIn? order value = ofJson? value := by
  have hsame : ∀ value,
      ofJsonIn? order value = order.findSome? (inForm? (nodesOf? value) value) →
        ofJsonIn? order value = ofJson? value := by
    intro value heq
    refine Option.ext fun node => ?_
    rw [heq, findSome?_inForm?_eq_some_iff h, ofJson?_eq_some_iff]
  induction value using Json.induction with
  | array items ih =>
      -- the items are read alike in both orders, so they are the same elements
      have hnodes : nodesOf? (.array items) = listOfJson? items := by
        rw [nodesOf?, filterOfJson]
        cases listOfJson? items <;> rfl
      refine hsame _ ?_
      rw [ofJsonIn?, listOfJsonIn?_eq ih, hnodes]
  | null | bool _ | number _ | string _ | object _ => exact hsame _ rfl

/-- **Filters are read in one way.** A value has one form at most, and is read as the element that
it is in that form, so that elements and filters are read alike in whatever order the forms are
tried, at every depth. An array is a condition exactly when it has two items, a kind, as a text or
as the only field of an object with null, and the array of its arguments. It is a group exactly when
each of its items is an element, and a filter with an array in it that is neither is refused. -/
theorem ofJson_unambiguous :
    (∀ value : Json,
      (∀ form form' : NodeForm, form.Accepts value → form'.Accepts value → form = form')
      ∧ ∀ node, ofJson? value = some node ↔ node.IsReadFrom value)
    ∧ (∀ order : List NodeForm, (∀ form, form ∈ order) →
      (∀ value, ofJsonIn? order value = ofJson? value)
      ∧ ∀ items, listOfJsonIn? order items = listOfJson? items)
    ∧ ∀ items : List Json,
      (∀ asked, ofJson? (.array items) = some (.condition asked) ↔ asked.IsRow items)
      ∧ (∀ nodes, ofJson? (.array items) = some (.group nodes)
        ↔ List.Forall₂ (fun item node => ofJson? item = some node) items nodes)
      ∧ ((∀ asked : Condition, ¬ asked.IsRow items) → (∃ item ∈ items, ofJson? item = none) →
        ∀ around, .array items ∈ around →
          filterOfJson (.array around) = .error (.noForm "FilterNode")) := by
  refine ⟨fun value => ⟨?_, fun node => ofJson?_eq_some_iff⟩, ?_,
    fun items => ⟨fun asked => ofJson?_eq_condition_iff, fun nodes => ofJson?_eq_group_iff, ?_⟩⟩
  · -- at most one form
    intro form form' h h'
    obtain ⟨node, rfl, hread⟩ := accepts_iff.mp h
    obtain ⟨node', rfl, hread'⟩ := accepts_iff.mp h'
    rw [eq_of_isReadFrom hread hread']
  · -- any order of trying
    intro order horder
    have hvalue := fun value => ofJsonIn?_eq horder value
    exact ⟨hvalue, fun items => listOfJsonIn?_eq fun item _ => hvalue item⟩
  · -- an item that is no element keeps the array from being a group
    intro hrow hitem around hmem
    have hnone : ofJson? (.array items) = none := ofJson?_array_eq_none hrow hitem
    rw [filterOfJson, listOfJson?_eq_none_iff.mpr ⟨.array items, hmem, hnone⟩]

/-- A condition as an array beside a join as an object and a group in a group, read with groups
tried first, and an array that is a condition but for its arguments. -/
theorem ofJson_unambiguous_groups_first :
    let condition : Json := .array [.object [("where", .null)], .array [.string "a", .bool true]]
    let items : List Json :=
      [condition, .object [("or", .null)],
        .array [.array [.object [("type", .string "null"), ("args", .array [])]]]]
    let broken : List Json := [.string "where", .string "a"]
    listOfJsonIn? [.group, .condition, .join] items
        = some [.condition ⟨.comparison, [.string "a", .bool true]⟩, .join .or,
          .group [.group [.condition ⟨.isNull, []⟩]]]
      ∧ ¬ NodeForm.group.Accepts condition
      ∧ filterOfJson (.array [.string "and", .array broken]) = .error (.noForm "FilterNode") := by
  intro condition items broken
  obtain ⟨hform, horder, harray⟩ := ofJson_unambiguous
  refine ⟨?_, ?_, ?_⟩
  · -- groups tried first
    exact ((horder [.group, .condition, .join] fun form => by cases form <;> decide).2 items).trans
      rfl
  · -- the condition has its own form already
    intro hgroup
    have hcondition : NodeForm.condition.Accepts condition := ⟨⟨.comparison, _⟩, rfl⟩
    exact absurd ((hform condition).1 _ _ hgroup hcondition) (by decide)
  · -- the arguments are no array
    have hrow : ∀ asked : Condition, ¬ asked.IsRow broken := by
      rintro asked ⟨kind, args, hitems, -, -⟩
      have hargs : Json.string "a" = .array args :=
        Option.some.inj (congrArg List.getLast? hitems)
      cases hargs
    exact (harray broken).2.2 hrow ⟨.string "where", List.mem_cons_self, rfl⟩ _
      (List.mem_cons_of_mem _ List.mem_cons_self)

end FilterNode

end ResourceQuery
