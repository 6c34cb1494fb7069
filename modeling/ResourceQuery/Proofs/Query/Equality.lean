import ResourceQuery.Proofs.Query.ReadBack

/-!
# Equality of queries

`Query.same` compares floats as numbers, so it is neither finer nor coarser than equality of values:
zero equals negative zero, and what is not a number does not equal itself. Where all floats are
finite a query is the same as itself (`Query.same_self`), and of the queries that a written query
can read as only the query itself is the same (`Query.eq_of_same_of_readsAs`).
-/

set_option autoImplicit false

namespace ResourceQuery

variable {order : FieldOrder}

/-! ## Arguments and filters -/

theorem float_beq_self {value : Float} (h : value.isFinite = true) : (value == value) = true := by
  have hmodel : value.toModel.unpack.isFinite = true := h
  show value.toModel.unpack.beq value.toModel.unpack = true
  cases hunpack : value.toModel.unpack with
  | infinity sign =>
      rw [hunpack] at hmodel
      cases hmodel
  | notANumber =>
      rw [hunpack] at hmodel
      cases hmodel
  | zero sign => rfl
  | finite sign mantissa exponent hpos =>
      have hself : (compare exponent exponent).then (compare mantissa mantissa) = .eq := by simp
      cases sign with
      | positive =>
          show (some ((compare exponent exponent).then (compare mantissa mantissa))
            == some Ordering.eq) = true
          rw [hself]
          rfl
      | negative =>
          show (some ((compare exponent exponent).then (compare mantissa mantissa)).swap
            == some Ordering.eq) = true
          rw [hself]
          rfl

theorem Arg.same_self {arg : Arg} (h : arg.IsFinite) : arg.same arg = true := by
  cases arg with
  | bool value => simp [same]
  | int value => simp [same]
  | float value => exact float_beq_self h
  | string value => simp [same]

theorem Arg.sameAll_self {args : List Arg} (h : ∀ arg ∈ args, arg.IsFinite) :
    sameAll args args = true := by
  induction args with
  | nil => rfl
  | cons arg rest ih =>
      obtain ⟨harg, hrest⟩ := List.forall_mem_cons.mp h
      rw [sameAll, same_self harg, ih hrest]
      rfl

namespace FilterNode

theorem sameAll_iff {nodes nodes' : List FilterNode} :
    sameAll nodes nodes' = true ↔ List.Forall₂ (fun a b => a.same b = true) nodes nodes' := by
  induction nodes generalizing nodes' with
  | nil => cases nodes' <;> simp [sameAll]
  | cons node rest ih =>
      cases nodes' with
      | nil => simp [sameAll]
      | cons node' rest' => simp [sameAll, ih]

theorem same_self {node : FilterNode} (h : ∀ arg ∈ node.args, arg.IsFinite) :
    node.same node = true := by
  induction node using FilterNode.induction with
  | join how => simp [same]
  | condition asked =>
      have hargs : Arg.sameAll asked.args asked.args = true := Arg.sameAll_self h
      simp [same, Condition.same, hargs]
  | group nodes ih =>
      rw [same, sameAll_iff, List.forall₂_same]
      intro node hnode
      exact ih node hnode fun arg harg => h arg (mem_listArgs.mpr ⟨node, hnode, harg⟩)

theorem sameAll_self {nodes : List FilterNode} (h : ∀ arg ∈ listArgs nodes, arg.IsFinite) :
    sameAll nodes nodes = true := by
  rw [sameAll_iff, List.forall₂_same]
  intro node hnode
  exact same_self fun arg harg => h arg (mem_listArgs.mpr ⟨node, hnode, harg⟩)

end FilterNode

/-! ## Relationships and queries -/

theorem Relationship.sameAll_iff {row row' : List Relationship} :
    sameAll row row' = true ↔ List.Forall₂ (fun a b => a.same b = true) row row' := by
  induction row generalizing row' with
  | nil => cases row' <;> simp [sameAll]
  | cons relationship rest ih =>
      cases row' with
      | nil => simp [sameAll]
      | cons relationship' rest' => simp [sameAll, ih]

theorem Query.same_iff {query query' : Query} :
    query.same query' = true
      ↔ query.columns = query'.columns
        ∧ sameOption FilterNode.sameAll query.filters query'.filters = true
        ∧ Option.Rel (List.Forall₂ fun a b => Relationship.same a b = true) query.relationships
            query'.relationships := by
  obtain ⟨columns, filters, related⟩ := query
  obtain ⟨columns', filters', related'⟩ := query'
  cases related with
  | none =>
      cases related' with
      | none => simp [same]
      | some row' =>
          simp only [same, Bool.false_eq_true, false_iff, not_and]
          rintro _ _ ⟨⟩
  | some row =>
      cases related' with
      | none =>
          simp only [same, Bool.false_eq_true, false_iff, not_and]
          rintro _ _ ⟨⟩
      | some row' =>
          simp only [same, Bool.and_eq_true, beq_iff_eq, Relationship.sameAll_iff, and_assoc]
          refine and_congr_right fun _ => and_congr_right fun _ => ⟨.some, ?_⟩
          rintro ⟨h⟩
          exact h

theorem Query.same_self_of_forall {query : Query} (hown : ∀ arg ∈ query.ownArgs, arg.IsFinite)
    (hrelated : ∀ row ∈ query.relationships, ∀ relationship ∈ row,
      Relationship.same relationship relationship = true) : query.same query = true := by
  rw [same_iff, optionRel_self_iff]
  refine ⟨rfl, ?_, fun row hrow => List.forall₂_same.mpr (hrelated row hrow)⟩
  obtain ⟨columns, filters, related⟩ := query
  cases filters with
  | none => rfl
  | some nodes => exact FilterNode.sameAll_self hown

theorem Relationship.same_self {relationship : Relationship}
    (h : ∀ arg ∈ relationship.args, arg.IsFinite) : relationship.same relationship = true := by
  induction relationship using Relationship.induction with
  | compact relationship text htext =>
      rcases relationship with name | ⟨name, columns⟩ | ⟨name, query⟩
      · simp [same]
      · simp [same]
      · cases htext
  | nested name query ih =>
      rw [args_nested, Query.forall_args_iff] at h
      have hquery := Query.same_self_of_forall h.1 fun row hrow relationship hmem =>
        ih row hrow relationship hmem (h.2 row hrow relationship hmem)
      simp [same, hquery]

/-- A query whose floats are finite is the same as itself. -/
theorem Query.same_self {query : Query} (h : ∀ arg ∈ query.args, arg.IsFinite) :
    query.same query = true := by
  rw [forall_args_iff] at h
  exact same_self_of_forall h.1 fun row hrow relationship hmem =>
    Relationship.same_self (h.2 row hrow relationship hmem)

/-! ## What a written query reads as -/

theorem eq_of_forall₂_of_forall₂ {α : Type} {R S : α → α → Prop} {xs ys : List α}
    (h : ∀ x ∈ xs, ∀ y, R x y → S y x → y = x) (hR : List.Forall₂ R xs ys)
    (hS : List.Forall₂ S ys xs) : ys = xs := by
  induction hR with
  | nil => rfl
  | cons hxy _ ih =>
      obtain ⟨hyx, hrest⟩ := List.forall₂_cons.mp hS
      rw [h _ List.mem_cons_self _ hxy hyx, ih (fun x hx => h x (List.mem_cons_of_mem _ hx)) hrest]

theorem Query.eq_of_same_of_forall {query back : Query} (h : ReadsAs order query back)
    (hsame : back.same query = true)
    (hrelated : ∀ row ∈ query.relationships, ∀ relationship ∈ row, ∀ back,
      Relationship.ReadsAs order relationship back → back.same relationship = true →
        back = relationship) : back = query := by
  obtain ⟨-, -, hrel⟩ := same_iff.mp hsame
  obtain ⟨columns, filters, related⟩ := query
  obtain ⟨columns', filters', related'⟩ := back
  obtain ⟨rfl, rfl, hread, -⟩ := h
  cases related with
  | none =>
      cases hread
      rfl
  | some row =>
      obtain ⟨hrow⟩ := hread
      obtain ⟨hback⟩ := hrel
      rw [eq_of_forall₂_of_forall₂ (hrelated row rfl) hrow hback]

theorem Relationship.eq_of_same_of_readsAs {relationship back : Relationship}
    (h : ReadsAs order relationship back) (hsame : back.same relationship = true) :
    back = relationship := by
  induction relationship using Relationship.induction generalizing back with
  | compact relationship text htext =>
      -- the same relationship has the same name, and the compact text then gives the columns
      have hback := (ofCompact_eq_ok_iff.mp ((readsAs_compact_iff htext).mp h)).2
      rcases relationship with name | ⟨name, columns⟩ | ⟨name, query⟩
      · rcases back with name' | ⟨name', columns'⟩ | ⟨name', query'⟩ <;> simp_all [same]
      · rcases back with name' | ⟨name', columns'⟩ | ⟨name', query'⟩ <;> simp_all [same]
      · cases htext
  | nested name query ih =>
      obtain ⟨query', hquery, rfl⟩ := readsAs_nested_iff.mp h
      have hsame' : query'.same query = true := by
        rw [same, Bool.and_eq_true] at hsame
        exact hsame.2
      rw [Query.eq_of_same_of_forall hquery hsame' fun row hrow relationship hmem back =>
        ih row hrow relationship hmem]

/-- Of the queries that a written query can read as, only the query itself is the same. -/
theorem Query.eq_of_same_of_readsAs {query back : Query} (h : ReadsAs order query back)
    (hsame : back.same query = true) : back = query :=
  eq_of_same_of_forall h hsame fun _ _ _ _ _ => Relationship.eq_of_same_of_readsAs

end ResourceQuery
