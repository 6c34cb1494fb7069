import ResourceQuery.ErrorTree
import ResourceQuery.Json.Encoding

/-!
# Trees of validation errors as contents

A tree offers its content for encoding: messages are a row of texts, a map is a table of its fields,
and a list is a row with a position for each index up to the last one, where null stands for an
index without errors. A list with an index above `maxListIndex` is a table with the decimal indices
as keys.
-/

set_option autoImplicit false

namespace ResourceQuery.ErrorTree

/-- The length of the array for a list, as a number of 64 bits. There is none for a list with an
index above `maxListIndex`. -/
def arrayLength? (items : List (Nat × ErrorTree)) : Option UInt64 :=
  match lastIndex? items with
  | none => some 0
  | some last => if last > maxListIndex then none else some (UInt64.ofNat last + 1)

/-- A row with the given contents at their indices, and null elsewhere. -/
def positionContents (length : UInt64) (items : List (Nat × Content)) : List Content :=
  (List.range length.toNat).map fun index => (Ascending.get? index items).getD .null

mutual

def content : ErrorTree → Content
  | .messages texts => .row (texts.map .text)
  | .list items =>
    match arrayLength? items with
    | some length => .row (positionContents length (itemContents items))
    | none => .fields ((itemContents items).map fun item => (toString item.1, item.2))
  | .map fields => .fields (fieldContents fields)

def itemContents : List (Nat × ErrorTree) → List (Nat × Content)
  | [] => []
  | (index, tree) :: rest => (index, tree.content) :: itemContents rest

def fieldContents : List (String × ErrorTree) → List (String × Content)
  | [] => []
  | (name, tree) :: rest => (name, tree.content) :: fieldContents rest

end

/-- The data value of a tree, or why there is none. -/
def encode (tree : ErrorTree) : Encoded Json := tree.content.toJson

end ResourceQuery.ErrorTree
