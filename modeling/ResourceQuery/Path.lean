/-!
# Dotted paths

A path names a place in nested data: segments with a dot between two of them. A path has at least
one segment, and a segment may be empty, so that every text is a path. A segment of decimal digits
can also be read as the index of a list item.
-/

set_option autoImplicit false

namespace ResourceQuery

/-- A path: its first segment and the segments after it. -/
structure Path where
  head : String
  tail : List String
  deriving DecidableEq, Repr

namespace Path

/-- The first segment of a row of characters and the segments after it. -/
def splitDots : List Char → List Char × List (List Char)
  | [] => ([], [])
  | c :: rest =>
    let (first, others) := splitDots rest
    if c = '.' then ([], first :: others) else (c :: first, others)

def ofText (text : String) : Path :=
  let (first, others) := splitDots text.toList
  ⟨String.ofList first, others.map String.ofList⟩

def segments (path : Path) : List String := path.head :: path.tail

/-- A path without its first segment, if there is more than one. -/
def below? (path : Path) : Option Path :=
  match path.tail with
  | [] => none
  | next :: rest => some ⟨next, rest⟩

def text (path : Path) : String := ".".intercalate path.segments

/-- The characters before the first dot, and those after it if there is a dot. -/
def cutAtDot : List Char → List Char × Option (List Char)
  | [] => ([], none)
  | c :: rest =>
    if c = '.' then ([], some rest)
    else
      let (before, after) := cutAtDot rest
      (c :: before, after)

/-- The text before the first dot, and the text after it if there is a dot. -/
def cut (text : String) : String × Option String :=
  let (before, after) := cutAtDot text.toList
  (String.ofList before, after.map String.ofList)

/-! ## Segments as indices -/

def isDigit (c : Char) : Bool := '0' ≤ c && c ≤ '9'

/-- The number that a row of decimal digits writes. -/
def decimalValue (digits : List Char) : Nat :=
  digits.foldl (fun n c => n * 10 + (c.toNat - '0'.toNat)) 0

/-- Indices are numbers of 64 bits. -/
def indexBound : Nat := Nat.pow 2 64

/-- The index that a segment writes: digits only, at least one, and a number below the bound.
Leading zeros make no difference. -/
def index? (segment : String) : Option Nat :=
  let digits := segment.toList
  if digits ≠ [] ∧ digits.all isDigit ∧ decimalValue digits < indexBound then
    some (decimalValue digits)
  else none

end Path

end ResourceQuery
