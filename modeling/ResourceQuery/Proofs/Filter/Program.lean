import Mathlib.Data.List.Chain
import ResourceQuery.Filter.Builder

/-!
# Filters that programs build

A program of additions builds a row in which nodes and joins take turns: the node of every addition,
and between two of them the join of the later one (`FilterOp.built_cons`). So nothing of a program
is lost but the first join on each level; `FilterOp.coreProgram` forgets just those. Since groups
are rows built by programs, the same holds at every depth (`FilterOp.exists_built_of_mem_rows`).
Main statement: `FilterOp.built_program`.
-/

set_option autoImplicit false

namespace ResourceQuery

/-! ## Rows at every depth -/

namespace FilterNode

mutual

/-- The rows of all groups in a node. -/
def innerRows : FilterNode → List (List FilterNode)
  | .join _ => []
  | .condition _ => []
  | .group nodes => nodes :: listInnerRows nodes

def listInnerRows : List FilterNode → List (List FilterNode)
  | [] => []
  | node :: rest => node.innerRows ++ listInnerRows rest

end

/-- A row of nodes and the rows of all groups in it, at every depth. -/
def rows (nodes : List FilterNode) : List (List FilterNode) := nodes :: listInnerRows nodes

theorem mem_listInnerRows {row nodes : List FilterNode} :
    row ∈ listInnerRows nodes ↔ ∃ node ∈ nodes, row ∈ node.innerRows := by
  induction nodes with
  | nil => simp [listInnerRows]
  | cons node rest ih => simp [listInnerRows, ih]

/-- Joins stand between two other nodes only. -/
structure JoinsBetween (row : List FilterNode) : Prop where
  first : ∀ node ∈ row.head?, node.isJoin = false
  last : ∀ node ∈ row.getLast?, node.isJoin = false
  apart : row.IsChain fun node next => ¬ (node.isJoin = true ∧ next.isJoin = true)

end FilterNode

namespace FilterOp

/-! ## What a program adds -/

/-- The nodes that a program builds. -/
def built (ops : List FilterOp) : List FilterNode := (applyAll .empty ops).nodes

def how : FilterOp → Join
  | .condition join _ _ => join
  | .group join _ => join

/-- The node that an addition adds: a condition with its kind and arguments, or one group with all
that its program builds. -/
def node : FilterOp → FilterNode
  | .condition _ kind args => .condition ⟨kind, args⟩
  | .group _ ops => .group (built ops)

/-- The node of an addition after its join. -/
def joined (op : FilterOp) : List FilterNode := [.join op.how, op.node]

/-- What holds of conditions, and of a group when it holds of its additions, holds of all. -/
@[elab_as_elim]
theorem induction {motive : FilterOp → Prop}
    (condition : ∀ join kind args, motive (.condition join kind args))
    (group : ∀ join ops, (∀ op ∈ ops, motive op) → motive (.group join ops)) (op : FilterOp) :
    motive op := by
  refine @FilterOp.rec motive (fun ops => ∀ op ∈ ops, motive op) condition group
    (fun _ h => absurd h List.not_mem_nil) ?_ op
  intro head tail hhead htail
  exact List.forall_mem_cons.mpr ⟨hhead, htail⟩

theorem apply_eq (builder : FilterBuilder) (op : FilterOp) :
    op.apply builder = builder.push op.how op.node := by
  cases op with
  | condition join kind args => rfl
  | group join ops => rfl

/-- To nodes that are there already, a program adds each node with its join. -/
theorem nodes_applyAll {builder : FilterBuilder} (h : builder.nodes ≠ []) (ops : List FilterOp) :
    (applyAll builder ops).nodes = builder.nodes ++ ops.flatMap joined := by
  induction ops generalizing builder with
  | nil => simp [applyAll]
  | cons op rest ih =>
      have hpush : (op.apply builder).nodes = builder.nodes ++ op.joined := by
        rw [apply_eq, FilterBuilder.nodes_push, if_neg h]
        rfl
      have hne : (op.apply builder).nodes ≠ [] := by
        rw [hpush]
        simp [h]
      rw [applyAll, ih hne, hpush, List.append_assoc, List.flatMap_cons]

theorem built_nil : built [] = [] := rfl

theorem built_cons (op : FilterOp) (rest : List FilterOp) :
    built (op :: rest) = op.node :: rest.flatMap joined := by
  have hfirst : (op.apply .empty).nodes = [op.node] := by
    rw [apply_eq, FilterBuilder.nodes_push]
    rfl
  rw [built, applyAll, nodes_applyAll (by simp [hfirst]), hfirst]
  rfl

/-! ## Positions -/

theorem length_flatMap_joined (ops : List FilterOp) :
    (ops.flatMap joined).length = 2 * ops.length := by
  induction ops with
  | nil => rfl
  | cons op rest ih =>
      rw [List.flatMap_cons, List.length_append, ih, List.length_cons]
      show 2 + 2 * rest.length = _
      omega

theorem getElem?_flatMap_joined (ops : List FilterOp) (i : Nat) :
    (ops.flatMap joined)[2 * i]? = ops[i]?.map (fun op => .join op.how)
      ∧ (ops.flatMap joined)[2 * i + 1]? = ops[i]?.map node := by
  induction ops generalizing i with
  | nil => simp
  | cons op rest ih =>
      rw [List.flatMap_cons]
      cases i with
      | zero => exact ⟨rfl, rfl⟩
      | succ i =>
          -- the first addition takes two positions
          obtain ⟨hjoin, hnode⟩ := ih i
          exact ⟨hjoin, hnode⟩

theorem length_built (ops : List FilterOp) : (built ops).length = 2 * ops.length - 1 := by
  cases ops with
  | nil => rfl
  | cons op rest =>
      rw [built_cons, List.length_cons, length_flatMap_joined, List.length_cons]
      omega

theorem getElem?_built_node (ops : List FilterOp) (i : Nat) :
    (built ops)[2 * i]? = ops[i]?.map node := by
  cases ops with
  | nil => simp [built_nil]
  | cons op rest =>
      rw [built_cons]
      cases i with
      | zero => rfl
      | succ i => exact (getElem?_flatMap_joined rest i).2

theorem getElem?_built_join (ops : List FilterOp) (i : Nat) :
    (built ops)[2 * i + 1]? = ops[i + 1]?.map fun op => .join op.how := by
  cases ops with
  | nil => simp [built_nil]
  | cons op rest =>
      rw [built_cons]
      exact (getElem?_flatMap_joined rest i).1

/-- What the front of a program builds is at the front of what the program builds. -/
theorem built_append_prefix (front back : List FilterOp) :
    built front <+: built (front ++ back) := by
  cases front with
  | nil => exact List.nil_prefix
  | cons op rest =>
      rw [List.cons_append, built_cons, built_cons, List.flatMap_append]
      exact ⟨back.flatMap joined, rfl⟩

/-! ## Joins -/

theorem isJoin_node (op : FilterOp) : op.node.isJoin = false := by
  cases op with
  | condition join kind args => rfl
  | group join ops => rfl

/-- Behind a node that is no join, nodes with their joins leave no join at the end and no two side
by side. -/
theorem joinsBetween_cons {node : FilterNode} (h : node.isJoin = false) (ops : List FilterOp) :
    FilterNode.JoinsBetween (node :: ops.flatMap joined) := by
  induction ops generalizing node with
  | nil =>
      refine ⟨?_, ?_, List.isChain_singleton _⟩
      · rintro _ ⟨⟩
        exact h
      · rintro _ ⟨⟩
        exact h
  | cons op rest ih =>
      obtain ⟨-, hlast, hapart⟩ := ih op.isJoin_node
      refine ⟨?_, ?_, ?_⟩
      · rintro _ ⟨⟩
        exact h
      · -- the last node is that of the rest
        rw [List.flatMap_cons]
        show ∀ last ∈ (node :: .join op.how :: op.node :: rest.flatMap joined).getLast?, _
        rw [List.getLast?_cons_cons, List.getLast?_cons_cons]
        exact hlast
      · -- the join stands between two nodes that are none
        rw [List.flatMap_cons]
        refine List.IsChain.cons_cons (by simp [h]) (List.IsChain.cons_cons ?_ hapart)
        simp [isJoin_node]

theorem joinsBetween_built (ops : List FilterOp) : FilterNode.JoinsBetween (built ops) := by
  cases ops with
  | nil =>
      refine ⟨?_, ?_, List.isChain_nil⟩
      · rintro _ ⟨⟩
      · rintro _ ⟨⟩
  | cons op rest =>
      rw [built_cons]
      exact joinsBetween_cons op.isJoin_node rest

/-! ## Every depth -/

theorem mem_built {node : FilterNode} {ops : List FilterOp} (h : node ∈ built ops) :
    node.isJoin = true ∨ ∃ op ∈ ops, node = op.node := by
  cases ops with
  | nil => exact absurd h List.not_mem_nil
  | cons first rest =>
      rw [built_cons, List.mem_cons, List.mem_flatMap] at h
      rcases h with rfl | ⟨op, hop, hmem⟩
      · exact .inr ⟨first, List.mem_cons_self, rfl⟩
      · rcases List.mem_cons.mp hmem with rfl | hmem
        · exact .inl rfl
        · exact .inr ⟨op, List.mem_cons_of_mem _ hop, List.mem_singleton.mp hmem⟩

theorem innerRows_of_isJoin {node : FilterNode} (h : node.isJoin = true) :
    node.innerRows = [] := by
  cases node with
  | join how => rw [FilterNode.innerRows]
  | condition asked => cases h
  | group nodes => cases h

/-- The rows of the groups in a built row are those in the nodes of its additions. -/
theorem mem_innerRows_built {row : List FilterNode} {ops : List FilterOp}
    (h : row ∈ FilterNode.listInnerRows (built ops)) : ∃ op ∈ ops, row ∈ op.node.innerRows := by
  obtain ⟨node, hnode, hrow⟩ := FilterNode.mem_listInnerRows.mp h
  rcases mem_built hnode with hjoin | ⟨op, hop, rfl⟩
  · rw [innerRows_of_isJoin hjoin] at hrow
    exact absurd hrow List.not_mem_nil
  · exact ⟨op, hop, hrow⟩

/-- Every row in the node of an addition is built by a program. -/
theorem exists_built_of_mem_innerRows {op : FilterOp} {row : List FilterNode}
    (h : row ∈ op.node.innerRows) : ∃ ops, row = built ops := by
  induction op using FilterOp.induction with
  | condition join kind args => exact absurd h List.not_mem_nil
  | group join ops ih =>
      rw [node, FilterNode.innerRows] at h
      rcases List.mem_cons.mp h with rfl | hinner
      · exact ⟨ops, rfl⟩
      · obtain ⟨op, hop, hrow⟩ := mem_innerRows_built hinner
        exact ih op hop hrow

/-- Every row at every depth is built by a program. -/
theorem exists_built_of_mem_rows {ops : List FilterOp} {row : List FilterNode}
    (h : row ∈ FilterNode.rows (built ops)) : ∃ ops', row = built ops' := by
  rcases List.mem_cons.mp h with rfl | hinner
  · exact ⟨ops, rfl⟩
  · obtain ⟨op, -, hrow⟩ := mem_innerRows_built hinner
    exact exists_built_of_mem_innerRows hrow

/-! ## What a program leaves no trace of -/

/-- The same addition with another join. -/
def withJoin (join : Join) : FilterOp → FilterOp
  | .condition _ kind args => .condition join kind args
  | .group _ ops => .group join ops

mutual

/-- An addition regardless of its own join, and of the first join on each level in it: all of these
are set to the same join. -/
def core : FilterOp → FilterOp
  | .condition _ kind args => .condition .and kind args
  | .group _ ops => .group .and (coreProgram ops)

/-- A program regardless of the first join on each level. -/
def coreProgram : List FilterOp → List FilterOp
  | [] => []
  | op :: rest => op.core :: coreRest rest

/-- The additions after the first, whose own joins count. -/
def coreRest : List FilterOp → List FilterOp
  | [] => []
  | op :: rest => op.core.withJoin op.how :: coreRest rest

end

theorem withJoin_core_eq_iff {op op' : FilterOp} {join join' : Join} :
    op.core.withJoin join = op'.core.withJoin join' ↔ join = join' ∧ op.core = op'.core := by
  cases op with
  | condition how kind args => cases op' <;> simp [core, withJoin]
  | group how ops => cases op' <;> simp [core, withJoin]

section Level

variable {ops ops' : List FilterOp}

theorem flatMap_joined_eq_iff
    (h : ∀ op ∈ ops, ∀ op' : FilterOp, op.node = op'.node ↔ op.core = op'.core) :
    ops.flatMap joined = ops'.flatMap joined ↔ coreRest ops = coreRest ops' := by
  induction ops generalizing ops' with
  | nil => cases ops' <;> simp [coreRest, joined]
  | cons op rest ih =>
      obtain ⟨hop, hrest⟩ := List.forall_mem_cons.mp h
      cases ops' with
      | nil => simp [coreRest, joined]
      | cons op' rest' =>
          -- behind the first node every join is seen, and with it that of each addition
          have hnext : rest.flatMap joined = rest'.flatMap joined
              ↔ coreRest rest = coreRest rest' := ih hrest
          have hsplit : op.joined ++ rest.flatMap joined = op'.joined ++ rest'.flatMap joined
              ↔ (op.how = op'.how ∧ op.node = op'.node)
                ∧ rest.flatMap joined = rest'.flatMap joined := by
            simp [joined, and_assoc]
          rw [List.flatMap_cons, List.flatMap_cons, hsplit, coreRest, coreRest, List.cons.injEq,
            withJoin_core_eq_iff, hop op', hnext]

theorem built_eq_iff_of_mem
    (h : ∀ op ∈ ops, ∀ op' : FilterOp, op.node = op'.node ↔ op.core = op'.core) :
    built ops = built ops' ↔ coreProgram ops = coreProgram ops' := by
  cases ops with
  | nil => cases ops' <;> simp [built_nil, built_cons, coreProgram]
  | cons op rest =>
      obtain ⟨hop, hrest⟩ := List.forall_mem_cons.mp h
      cases ops' with
      | nil => simp [built_nil, built_cons, coreProgram]
      | cons op' rest' =>
          rw [built_cons, built_cons, coreProgram, coreProgram, List.cons.injEq, List.cons.injEq,
            hop op', flatMap_joined_eq_iff hrest]

end Level

theorem node_eq_iff {op op' : FilterOp} : op.node = op'.node ↔ op.core = op'.core := by
  induction op using FilterOp.induction generalizing op' with
  | condition join kind args => cases op' <;> simp [node, core]
  | group join ops ih =>
      cases op' with
      | condition join' kind args => simp [node, core]
      | group join' ops' =>
          have hlevel : built ops = built ops' ↔ coreProgram ops = coreProgram ops' :=
            built_eq_iff_of_mem fun op hop op' => @ih op hop op'
          simp [node, core, hlevel]

/-- **What a program builds.** The node of each addition is in its place, with the join of the later
one between two of them, and nothing else; the front of a program builds the front of the row. At
every depth a join stands between two other nodes. Two programs build the same row just when they
differ in first joins only. -/
theorem built_program (ops : List FilterOp) :
    (built ops).length = 2 * ops.length - 1
      ∧ (∀ i, (built ops)[2 * i]? = ops[i]?.map node)
      ∧ (∀ i, (built ops)[2 * i + 1]? = ops[i + 1]?.map fun op => .join op.how)
      ∧ (∀ count, built (ops.take count) <+: built ops)
      ∧ (∀ row ∈ FilterNode.rows (built ops), FilterNode.JoinsBetween row)
      ∧ ∀ ops', built ops = built ops' ↔ coreProgram ops = coreProgram ops' := by
  refine ⟨length_built ops, getElem?_built_node ops, getElem?_built_join ops, ?_, ?_, ?_⟩
  · intro count
    have hprefix := built_append_prefix (ops.take count) (ops.drop count)
    rwa [List.take_append_drop] at hprefix
  · intro row hrow
    obtain ⟨ops', rfl⟩ := exists_built_of_mem_rows hrow
    exact joinsBetween_built ops'
  · exact fun ops' => built_eq_iff_of_mem fun _ _ _ => node_eq_iff

/-- A group in first place, an empty group in it, and first joins that leave no trace. -/
theorem built_program_groups :
    let ops : List FilterOp :=
      [.group .or [.condition .or .isNull [], .group .and []],
        .condition .or .comparison [.string "a", .int 1]]
    let ops' : List FilterOp :=
      [.group .and [.condition .and .isNull [], .group .and []],
        .condition .or .comparison [.string "a", .int 1]]
    (built ops).length = 3
      ∧ (built ops)[2]? = some (.condition ⟨.comparison, [.string "a", .int 1]⟩)
      ∧ (built ops)[1]? = some (.join .or)
      ∧ built (ops.take 1) <+: built ops
      ∧ FilterNode.JoinsBetween [.condition ⟨.isNull, []⟩, .join .and, .group []]
      ∧ built ops = built ops' := by
  intro ops ops'
  obtain ⟨hlength, hnode, hjoin, hprefix, hrows, hsame⟩ := built_program ops
  refine ⟨hlength, hnode 1, hjoin 0, hprefix 1, hrows _ ?_, (hsame ops').mpr rfl⟩
  exact List.mem_cons_of_mem _ List.mem_cons_self

end FilterOp

end ResourceQuery
