import ResourceQuery.Decimal.Layout

/-!
# Filters

A filter is a row of nodes: conditions and groups, with a join between two of them. A condition has
a kind and arguments; the arguments are not interpreted here, so that column names, operators and
values to compare with are all the same. A group is a row of its own.
-/

set_option autoImplicit false

namespace ResourceQuery

/-- An argument of a condition. -/
inductive Arg
  | bool (value : Bool)
  | int (value : Int64)
  | float (value : Float)
  | string (value : String)

/-- How a float is shown to a reader: all its digits in place, ties away from zero. -/
def Arg.layout : Decimal.Layout :=
  { inPlace := fun _ => true, wholeMark := [], tie := .up }

/-- An argument as it is shown to a reader: text between single quotes, all else bare. -/
def Arg.display : Arg → String
  | .bool true => "true"
  | .bool false => "false"
  | .int value => toString value.toInt
  | .float value => Arg.layout.render value
  | .string value => "'" ++ value ++ "'"

/-- What a condition asks. -/
inductive FilterKind
  | comparison
  | isNull
  | isNotNull
  /-- A comparison on a column of a related resource. -/
  | relation
  deriving DecidableEq, Repr

namespace FilterKind

def name : FilterKind → String
  | .comparison => "where"
  | .isNull => "null"
  | .isNotNull => "notNull"
  | .relation => "whereRel"

/-- All kinds, in the order in which they are listed to a reader. -/
def all : List FilterKind := [.comparison, .isNull, .isNotNull, .relation]

end FilterKind

/-- How a node is joined to the one before it. -/
inductive Join
  | and
  | or
  deriving DecidableEq, Repr

namespace Join

def name : Join → String
  | .and => "and"
  | .or => "or"

/-- Both joins, in the order in which they are listed to a reader. -/
def all : List Join := [.and, .or]

end Join

structure Condition where
  kind : FilterKind
  args : List Arg

inductive FilterNode
  | join (how : Join)
  | condition (asked : Condition)
  | group (nodes : List FilterNode)

namespace FilterNode

def isJoin : FilterNode → Bool
  | .join _ => true
  | _ => false

end FilterNode

/-! ## Equality

Two filters are the same when they have the same shape and equal arguments. Floats are compared as
numbers: zero equals negative zero, and what is not a number equals nothing. -/

/-- Equality of arguments, floats compared as numbers. -/
def Arg.same : Arg → Arg → Bool
  | .bool a, .bool b => a == b
  | .int a, .int b => a == b
  | .float a, .float b => a == b
  | .string a, .string b => a == b
  | _, _ => false

def Arg.sameAll : List Arg → List Arg → Bool
  | [], [] => true
  | a :: as, b :: bs => a.same b && Arg.sameAll as bs
  | _, _ => false

def Condition.same (a b : Condition) : Bool := a.kind = b.kind && Arg.sameAll a.args b.args

mutual

def FilterNode.same : FilterNode → FilterNode → Bool
  | .join a, .join b => a = b
  | .condition a, .condition b => a.same b
  | .group as, .group bs => FilterNode.sameAll as bs
  | _, _ => false

def FilterNode.sameAll : List FilterNode → List FilterNode → Bool
  | [], [] => true
  | a :: as, b :: bs => a.same b && FilterNode.sameAll as bs
  | _, _ => false

end

end ResourceQuery
