import ResourceQuery.Json
import ResourceQuery.Path

/-!
# Trees of validation errors

Validation errors in the shape of the data they are about: messages at the leaves, lists of items by
index, and maps of fields by name. `ErrorTree.at?` follows a dotted path into the tree, and
`ErrorTree.toJson` writes the tree as a data value.
-/

set_option autoImplicit false

namespace ResourceQuery

/-- Validation errors of one place and of all places below it. -/
inductive ErrorTree
  | messages (texts : List String)
  /-- The errors of list items, by ascending index. -/
  | list (items : List (Nat × ErrorTree))
  /-- The errors of fields, by ascending name. -/
  | map (fields : List (String × ErrorTree))
  deriving Inhabited

namespace ErrorTree

/-- The greatest index that is written as a position in an array. -/
def maxListIndex : Nat := 1024

/-! ## Looking up -/

/-- The child for one segment. In a list, spellings of one index name the same child. -/
def child? (tree : ErrorTree) (segment : String) : Option ErrorTree :=
  match tree with
  | .messages _ => none
  | .list items => (Path.index? segment).bind fun index => Ascending.get? index items
  | .map fields => Ascending.get? segment fields

/-- The place that a row of segments leads to. -/
def follow? (tree : ErrorTree) : List String → Option ErrorTree
  | [] => some tree
  | segment :: rest => (tree.child? segment).bind (·.follow? rest)

/-- The place at a dotted path. -/
def at? (tree : ErrorTree) (path : String) : Option ErrorTree :=
  tree.follow? (Path.ofText path).segments

def messages? : ErrorTree → Option (List String)
  | .messages texts => some texts
  | _ => none

def isEmpty : ErrorTree → Bool
  | .messages texts => texts.isEmpty
  | .list items => items.isEmpty
  | .map fields => fields.isEmpty

/-! ## As a data value -/

def lastIndex? (items : List (Nat × ErrorTree)) : Option Nat := items.getLast?.map Prod.fst

/-- Whether a list of items is written as an object, because an array would be too long. -/
def isSpread (items : List (Nat × ErrorTree)) : Bool :=
  (lastIndex? items).any (· > maxListIndex)

mutual

/-- The tree as a data value. A list is an array in which null stands for an index without errors;
with an index above `maxListIndex` it is an object with the decimal indices as names. -/
def toJson : ErrorTree → Json
  | .messages texts => .array (texts.map .string)
  | .list items =>
    if isSpread items then .object (spread items) else .array (positions 0 items)
  | .map fields => .object (fieldsToJson fields)

def fieldsToJson : List (String × ErrorTree) → List (String × Json)
  | [] => []
  | (name, tree) :: rest => (name, tree.toJson) :: fieldsToJson rest

/-- The items of a list as fields, in the order of their decimal indices as text. -/
def spread : List (Nat × ErrorTree) → List (String × Json)
  | [] => []
  | (index, tree) :: rest => Ascending.insert (toString index) tree.toJson (spread rest)

/-- The array positions from `next` on. -/
def positions (next : Nat) : List (Nat × ErrorTree) → List Json
  | [] => []
  | (index, tree) :: rest =>
    List.replicate (index - next) .null ++ tree.toJson :: positions (index + 1) rest

end

end ErrorTree

end ResourceQuery
