import ResourceQuery.Proofs.Filter.Program
import ResourceQuery.Proofs.Query.Built

/-!
# What a program composes

The steps of a program are of three kinds, apart from blocks: selections, additions to the filter,
and inclusions of resources. `QueryOp.inlinedAll` resolves the blocks, and each step that is left
touches one part of the builder, that of its kind (`QueryOp.apply_eq_collect`). So a program is
determined by three subsequences (`QueryOp.applyAll_eq_collect`): what it builds and tells does not
depend on how steps of different kinds are interleaved. Main statement: `QueryOp.run_composed`.
-/

set_option autoImplicit false

namespace ResourceQuery

/-! ## Steps by kind -/

/-- A step that includes a resource. -/
inductive Inclusion
  | bare (name : String)
  | scoped (name : String) (columns : List String)
  | query (name : String) (ops : List QueryOp)

namespace Inclusion

/-- The relationship that an inclusion adds. -/
def entry : Inclusion → Relationship
  | .bare name => .bare name
  | .scoped name columns => .scoped name columns
  | .query name ops => .ofQuery name (QueryOp.run ops).build

/-- The warnings that an inclusion adds: those of its own program, and those about its name. -/
def warnings : Inclusion → List QueryWarning
  | .bare _ => []
  | .scoped name _ => nameWarnings name
  | .query name ops =>
    (QueryOp.run ops).warnings ++ Relationship.queryWarnings name (QueryOp.run ops).build

end Inclusion

namespace QueryOp

def selection? : QueryOp → Option (List String)
  | .select columns => some columns
  | _ => none

/-- What a step adds to the filter. -/
def addition? : QueryOp → Option FilterOp
  | .filter op => some op
  | _ => none

/-- What a step includes. -/
def inclusion? : QueryOp → Option Inclusion
  | .related name => some (.bare name)
  | .relatedColumns name columns => some (.scoped name columns)
  | .relatedQuery name ops => some (.query name ops)
  | _ => none

def selections (ops : List QueryOp) : List (List String) := ops.filterMap selection?

def additions (ops : List QueryOp) : List FilterOp := ops.filterMap addition?

def inclusions (ops : List QueryOp) : List Inclusion := ops.filterMap inclusion?

/-! ## Blocks -/

mutual

/-- The steps that a step amounts to. A block is its steps if its condition holds, and none
otherwise. -/
def inlined : QueryOp → List QueryOp
  | .select columns => [.select columns]
  | .filter op => [.filter op]
  | .related name => [.related name]
  | .relatedColumns name columns => [.relatedColumns name columns]
  | .relatedQuery name ops => [.relatedQuery name (inlinedAll ops)]
  | .when holds ops => if holds then inlinedAll ops else []

/-- A program with its blocks resolved, at every depth. -/
def inlinedAll : List QueryOp → List QueryOp
  | [] => []
  | op :: rest => inlined op ++ inlinedAll rest

end

def isBlock : QueryOp → Bool
  | .when _ _ => true
  | _ => false

theorem mem_inlinedAll {step : QueryOp} {ops : List QueryOp} :
    step ∈ inlinedAll ops ↔ ∃ op ∈ ops, step ∈ inlined op := by
  induction ops with
  | nil => simp [inlinedAll]
  | cons op rest ih => simp [inlinedAll, ih]

theorem isBlock_of_mem_inlined {op step : QueryOp} (h : step ∈ inlined op) :
    step.isBlock = false := by
  induction op using QueryOp.induction with
  | when holds ops ih =>
      rw [inlined] at h
      cases holds with
      | false => exact absurd h List.not_mem_nil
      | true =>
          obtain ⟨op, hop, hstep⟩ := mem_inlinedAll.mp h
          exact ih op hop hstep
  | _ =>
      -- every other step amounts to one step of its own kind
      rw [inlined, List.mem_singleton] at h
      rw [h]
      rfl

/-- No block is left in a program whose blocks have been resolved. -/
theorem isBlock_of_mem_inlinedAll {step : QueryOp} {ops : List QueryOp}
    (h : step ∈ inlinedAll ops) : step.isBlock = false := by
  obtain ⟨op, -, hstep⟩ := mem_inlinedAll.mp h
  exact isBlock_of_mem_inlined hstep

theorem applyAll_append (builder : QueryBuilder) (front back : List QueryOp) :
    applyAll builder (front ++ back) = applyAll (applyAll builder front) back := by
  induction front generalizing builder with
  | nil => rw [List.nil_append, applyAll]
  | cons op rest ih => rw [List.cons_append, applyAll, ih, applyAll]

theorem applyAll_inlinedAll_of_mem {ops : List QueryOp}
    (h : ∀ op ∈ ops, ∀ builder, applyAll builder (inlined op) = op.apply builder)
    (builder : QueryBuilder) : applyAll builder (inlinedAll ops) = applyAll builder ops := by
  induction ops generalizing builder with
  | nil => rw [inlinedAll]
  | cons op rest ih =>
      obtain ⟨hop, hrest⟩ := List.forall_mem_cons.mp h
      rw [inlinedAll, applyAll_append, hop, ih hrest, applyAll]

theorem applyAll_singleton (builder : QueryBuilder) (op : QueryOp) :
    applyAll builder [op] = op.apply builder := by
  rw [applyAll, applyAll]

/-- A step does what the steps do that it amounts to. -/
theorem applyAll_inlined (op : QueryOp) (builder : QueryBuilder) :
    applyAll builder (inlined op) = op.apply builder := by
  induction op using QueryOp.induction generalizing builder with
  | select columns => rw [inlined, applyAll_singleton]
  | filter op => rw [inlined, applyAll_singleton]
  | related name => rw [inlined, applyAll_singleton]
  | relatedColumns name columns => rw [inlined, applyAll_singleton]
  | relatedQuery name ops ih =>
      rw [inlined, applyAll_singleton, apply, apply, applyAll_inlinedAll_of_mem ih]
  | when holds ops ih =>
      rw [inlined, apply]
      -- the condition decides whether the steps are there
      cases holds with
      | false => exact applyAll.eq_1 builder
      | true => exact applyAll_inlinedAll_of_mem ih builder

/-- Resolving the blocks of a program changes nothing. -/
theorem applyAll_inlinedAll (builder : QueryBuilder) (ops : List QueryOp) :
    applyAll builder (inlinedAll ops) = applyAll builder ops :=
  applyAll_inlinedAll_of_mem (fun op _ => applyAll_inlined op) builder

theorem run_inlinedAll (ops : List QueryOp) : run (inlinedAll ops) = run ops :=
  applyAll_inlinedAll .empty ops

end QueryOp

/-! ## One part a step -/

theorem FilterOp.applyAll_append (builder : FilterBuilder) (front back : List FilterOp) :
    applyAll builder (front ++ back) = applyAll (applyAll builder front) back := by
  induction front generalizing builder with
  | nil => rw [List.nil_append, applyAll]
  | cons op rest ih => rw [List.cons_append, applyAll, ih, applyAll]

/-- The builder after selections, additions to the filter, and inclusions. -/
def QueryBuilder.collect (builder : QueryBuilder) (selections : List (List String))
    (additions : List FilterOp) (inclusions : List Inclusion) : QueryBuilder where
  columns := selections.getLast?.getD builder.columns
  filters := FilterOp.applyAll builder.filters additions
  relationships := builder.relationships ++ inclusions.map Inclusion.entry
  warnings := builder.warnings ++ inclusions.flatMap Inclusion.warnings

namespace QueryBuilder

variable (builder : QueryBuilder)

theorem collect_nil : builder.collect [] [] [] = builder := by
  simp only [collect, List.getLast?_nil, Option.getD_none, List.map_nil, List.flatMap_nil,
    List.append_nil, FilterOp.applyAll]

theorem collect_selection (columns : List String) :
    builder.collect [columns] [] [] = builder.select columns := by
  simp only [collect, select, List.getLast?_singleton, Option.getD_some, List.map_nil,
    List.flatMap_nil, List.append_nil, FilterOp.applyAll]

theorem collect_addition (op : FilterOp) : builder.collect [] [op] [] = builder.filter op := by
  simp only [collect, filter, List.getLast?_nil, Option.getD_none, List.map_nil, List.flatMap_nil,
    List.append_nil, FilterOp.applyAll]

theorem collect_inclusion (inclusion : Inclusion) :
    builder.collect [] [] [inclusion] = builder.relate inclusion.entry inclusion.warnings := by
  simp only [collect, relate, List.getLast?_nil, Option.getD_none, List.map_singleton,
    List.flatMap_singleton, FilterOp.applyAll]

theorem collect_append (selections selections' : List (List String))
    (additions additions' : List FilterOp) (inclusions inclusions' : List Inclusion) :
    (builder.collect selections additions inclusions).collect selections' additions' inclusions'
      = builder.collect (selections ++ selections') (additions ++ additions')
          (inclusions ++ inclusions') := by
  have hcolumns : selections'.getLast?.getD (selections.getLast?.getD builder.columns)
      = (selections ++ selections').getLast?.getD builder.columns := by
    rw [List.getLast?_append]
    cases selections'.getLast? with
    | none => rfl
    | some columns => rfl
  simp only [collect, hcolumns, FilterOp.applyAll_append, List.map_append, List.flatMap_append,
    List.append_assoc]

end QueryBuilder

namespace QueryOp

/-- A step that is no block touches the part of its kind, and no other. -/
theorem apply_eq_collect {op : QueryOp} (h : op.isBlock = false) (builder : QueryBuilder) :
    op.apply builder
      = builder.collect op.selection?.toList op.addition?.toList op.inclusion?.toList := by
  cases op with
  | select columns => exact (builder.collect_selection columns).symm
  | filter op => exact (builder.collect_addition op).symm
  | related name => exact (builder.collect_inclusion (.bare name)).symm
  | relatedColumns name columns => exact (builder.collect_inclusion (.scoped name columns)).symm
  | relatedQuery name ops => exact (builder.collect_inclusion (.query name ops)).symm
  | when holds ops => cases h

/-- **A program without blocks is its three subsequences**, however they are interleaved. -/
theorem applyAll_eq_collect {ops : List QueryOp} (h : ∀ op ∈ ops, op.isBlock = false)
    (builder : QueryBuilder) :
    applyAll builder ops = builder.collect (selections ops) (additions ops) (inclusions ops) := by
  induction ops generalizing builder with
  | nil => exact builder.collect_nil.symm
  | cons op rest ih =>
      obtain ⟨hop, hrest⟩ := List.forall_mem_cons.mp h
      calc applyAll builder (op :: rest)
          = applyAll (op.apply builder) rest := by rw [applyAll]
        _ = (op.apply builder).collect (selections rest) (additions rest) (inclusions rest) :=
          ih hrest _
        _ = builder.collect (op.selection?.toList ++ selections rest)
              (op.addition?.toList ++ additions rest)
              (op.inclusion?.toList ++ inclusions rest) := by
          rw [apply_eq_collect hop, QueryBuilder.collect_append]
        _ = builder.collect (selections (op :: rest)) (additions (op :: rest))
              (inclusions (op :: rest)) := by
          simp only [selections, additions, inclusions, List.filterMap_eq_flatMap_toList,
            List.flatMap_cons]

/-- What a program collects, by the subsequences of the program with its blocks resolved. -/
theorem run_eq_collect (ops : List QueryOp) :
    run ops = QueryBuilder.empty.collect (selections (inlinedAll ops))
      (additions (inlinedAll ops)) (inclusions (inlinedAll ops)) := by
  rw [← run_inlinedAll, run]
  exact applyAll_eq_collect (fun _ => isBlock_of_mem_inlinedAll) _

/-! ## The query and the warnings -/

theorem built_additions (ops : List FilterOp) :
    nonEmpty? (FilterOp.built ops) = (nonEmpty? ops).map FilterOp.built := by
  cases ops with
  | nil => rfl
  | cons op rest =>
      rw [FilterOp.built_cons]
      exact congrArg some (FilterOp.built_cons op rest).symm

theorem nonEmpty?_map {α β : Type} (f : α → β) (items : List α) :
    nonEmpty? (items.map f) = (nonEmpty? items).map (List.map f) := by
  cases items with
  | nil => rfl
  | cons item rest => rfl

theorem nonEmpty?_getLast? (selections : List (List String)) :
    nonEmpty? (selections.getLast?.getD []) = selections.getLast?.bind nonEmpty? := by
  cases selections.getLast? with
  | none => rfl
  | some columns => rfl

/-- Two programs whose steps of each kind are the same in the same order, once their blocks are
resolved: both are interleavings of the same three subsequences. -/
structure SameParts (ops ops' : List QueryOp) : Prop where
  selections : selections (inlinedAll ops) = selections (inlinedAll ops')
  additions : additions (inlinedAll ops) = additions (inlinedAll ops')
  inclusions : inclusions (inlinedAll ops) = inclusions (inlinedAll ops')

/-- **What a program composes.** Its blocks may be resolved beforehand. The columns of the query are
those of the last selection, its filter is what the additions to the filter build, and its
relationships are one for each inclusion; a part is absent when there are none. The warnings are
those of the inclusions. So two interleavings of the same steps build the same and tell the same. -/
theorem run_composed (ops : List QueryOp) :
    run (inlinedAll ops) = run ops
      ∧ (run ops).build
        = ⟨(selections (inlinedAll ops)).getLast?.bind nonEmpty?,
            (nonEmpty? (additions (inlinedAll ops))).map FilterOp.built,
            (nonEmpty? (inclusions (inlinedAll ops))).map (List.map Inclusion.entry)⟩
      ∧ (run ops).warnings = (inclusions (inlinedAll ops)).flatMap Inclusion.warnings
      ∧ ∀ ops', SameParts ops ops' →
        (run ops').build = (run ops).build ∧ (run ops').warnings = (run ops).warnings := by
  have hcollect := run_eq_collect ops
  refine ⟨run_inlinedAll ops, ?_, ?_, ?_⟩
  · -- the parts of the query
    rw [hcollect, ← nonEmpty?_getLast?, ← built_additions, ← nonEmpty?_map]
    rfl
  · -- the warnings
    rw [hcollect]
    rfl
  · -- another interleaving has the same three subsequences
    intro ops' hsame
    have hrun : run ops' = run ops := by
      rw [hcollect, run_eq_collect ops', hsame.selections, hsame.additions, hsame.inclusions]
    rw [hrun]
    exact ⟨rfl, rfl⟩

/-- Blocks in blocks and in a program of its own, and an empty selection at the end of it. -/
theorem run_composed_blocks :
    let asked : FilterOp := .condition .or .comparison [.string "a", .int 1]
    let ops : List QueryOp :=
      [.when true [.select ["id"], .when false [.related "never"], .filter asked],
        .relatedColumns "a:b" ["x"],
        .relatedQuery "c" [.select ["y"], .when true [.select []]], .select ["id", "title"]]
    let ops' : List QueryOp :=
      [.relatedColumns "a:b" ["x"], .select ["id"], .relatedQuery "c" [.select ["y"], .select []],
        .filter asked, .select ["id", "title"]]
    SameParts ops ops'
      ∧ (run ops').build = (run ops).build
      ∧ (run ops).build = ⟨some ["id", "title"],
          some [.condition ⟨.comparison, [.string "a", .int 1]⟩],
          some [.scoped "a:b" ["x"], .nested "c" ⟨none, none, none⟩]⟩
      ∧ (run ops').warnings = (run ops).warnings
      ∧ (run ops).warnings = [.ambiguousName "a:b"] := by
  intro asked ops ops'
  have hsame : SameParts ops ops' := ⟨rfl, rfl, rfl⟩
  obtain ⟨-, hbuild, hwarnings, hinterleaved⟩ := run_composed ops
  obtain ⟨hbuild', hwarnings'⟩ := hinterleaved ops' hsame
  exact ⟨hsame, hbuild', hbuild, hwarnings', hwarnings⟩

end QueryOp

end ResourceQuery
