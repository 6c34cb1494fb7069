import ResourceQuery.Filter

/-!
# Building filters

A builder collects the nodes of a filter. Every addition names its join, which is put before the
new node unless the node is the first. A group is built by a builder of its own and added as one
node. `FilterOp` is an addition as a value, so that a filter can be described by a program.
-/

set_option autoImplicit false

namespace ResourceQuery

/-- The nodes collected so far. -/
structure FilterBuilder where
  nodes : List FilterNode

/-- An addition to a filter. -/
inductive FilterOp
  | condition (join : Join) (kind : FilterKind) (args : List Arg)
  | group (join : Join) (ops : List FilterOp)

/-! ## Additions by name

Each addition is a condition of some kind or a group, and comes with `and` unless its name says
`or`. -/

namespace FilterOp

section Conditions

variable (args : List Arg)

def comparison : FilterOp := .condition .and .comparison args

def isNull : FilterOp := .condition .and .isNull args

def isNotNull : FilterOp := .condition .and .isNotNull args

def relation : FilterOp := .condition .and .relation args

def orComparison : FilterOp := .condition .or .comparison args

def orIsNull : FilterOp := .condition .or .isNull args

def orIsNotNull : FilterOp := .condition .or .isNotNull args

def orRelation : FilterOp := .condition .or .relation args

end Conditions

def andGroup (ops : List FilterOp) : FilterOp := .group .and ops

def orGroup (ops : List FilterOp) : FilterOp := .group .or ops

/-- There are no other additions. -/
theorem eq_named (op : FilterOp) :
    (∃ member ∈ [comparison, isNull, isNotNull, relation, orComparison, orIsNull, orIsNotNull,
        orRelation], ∃ args, op = member args)
      ∨ ∃ member ∈ [andGroup, orGroup], ∃ ops, op = member ops := by
  cases op with
  | condition join kind args =>
      refine .inl ?_
      cases join <;> cases kind <;> simp [comparison, isNull, isNotNull, relation, orComparison,
        orIsNull, orIsNotNull, orRelation]
  | group join ops =>
      refine .inr ?_
      cases join <;> simp [andGroup, orGroup]

end FilterOp

/-! ## Builders -/

namespace FilterBuilder

def empty : FilterBuilder := ⟨[]⟩

def isEmpty (builder : FilterBuilder) : Bool := builder.nodes.isEmpty

/-- The number of nodes, joins included. -/
def size (builder : FilterBuilder) : Nat := builder.nodes.length

/-- Adds a node, with its join before it unless it is the first. -/
def push (builder : FilterBuilder) (join : Join) (node : FilterNode) : FilterBuilder :=
  if builder.isEmpty then ⟨[node]⟩ else ⟨builder.nodes ++ [.join join, node]⟩

/-- The first node comes alone, and every other one with its join. -/
theorem nodes_push (builder : FilterBuilder) (join : Join) (node : FilterNode) :
    (builder.push join node).nodes
      = if builder.nodes = [] then [node] else builder.nodes ++ [.join join, node] := by
  unfold push isEmpty
  cases builder.nodes with
  | nil => rfl
  | cons first rest => rfl

def condition (builder : FilterBuilder) (join : Join) (kind : FilterKind) (args : List Arg) :
    FilterBuilder :=
  builder.push join (.condition ⟨kind, args⟩)

def group (builder : FilterBuilder) (join : Join) (members : FilterBuilder) : FilterBuilder :=
  builder.push join (.group members.nodes)

end FilterBuilder

mutual

def FilterOp.apply (builder : FilterBuilder) : FilterOp → FilterBuilder
  | .condition join kind args => builder.condition join kind args
  | .group join ops => builder.group join (FilterOp.applyAll .empty ops)

def FilterOp.applyAll (builder : FilterBuilder) : List FilterOp → FilterBuilder
  | [] => builder
  | op :: rest => FilterOp.applyAll (op.apply builder) rest

end

end ResourceQuery
