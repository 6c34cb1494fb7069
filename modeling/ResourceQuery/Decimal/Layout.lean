import ResourceQuery.Decimal.Shortest

/-!
# Writing floats

A float is written with its shortest digits. What a text format decides beside that is one record,
`Layout`: the exponents for which the digits are written out in place, how a whole number ends, and
which way ties go.
-/

set_option autoImplicit false

namespace ResourceQuery.Decimal

/-- The decisions of a format for floats. -/
structure Layout where
  /-- Whether a number whose leading digit stands for this power of ten is written in place. -/
  inPlace : Int → Bool
  /-- What follows a whole number written in place. -/
  wholeMark : List Char
  /-- Which way ties between digits go. -/
  tie : Tie

def digitsOf (n : Nat) : List Char := Nat.toDigits 10 n

/-- An exponent always has a sign. -/
def signed (n : Int) : List Char :=
  if n < 0 then '-' :: digitsOf n.natAbs else '+' :: digitsOf n.natAbs

/-- The digits with zeros and the point where they belong. -/
def writtenOut (mark : List Char) (d : Scaled) : List Char :=
  let ds := digitsOf d.digits
  let whole := d.exponent + ds.length
  if d.exponent ≥ 0 then ds ++ List.replicate d.exponent.toNat '0' ++ mark
  else if whole > 0 then ds.take whole.toNat ++ '.' :: ds.drop whole.toNat
  else ['0', '.'] ++ List.replicate (-whole).toNat '0' ++ ds

/-- One digit, the others after the point, and the power of ten. -/
def scientific (d : Scaled) : List Char :=
  let ds := digitsOf d.digits
  let power := signed (d.exponent + ds.length - 1)
  match ds with
  | first :: second :: rest => first :: '.' :: second :: rest ++ 'e' :: power
  | short => short ++ 'e' :: power

def Layout.magnitude (layout : Layout) (d : Scaled) : List Char :=
  if layout.inPlace (d.exponent + (digitsOf d.digits).length - 1) then
    writtenOut layout.wholeMark d
  else
    scientific d

/-- A float as text: the sign bit shows also on zero, and what is not a number has a name. -/
def Layout.render (layout : Layout) (x : Float) : String :=
  if x.isNaN then "NaN"
  else
    let magnitude := if x.isFinite then
      layout.magnitude (shortest layout.tie (Binary.ofFloat x)) else ['i', 'n', 'f']
    String.ofList (if isNegative x then '-' :: magnitude else magnitude)

end ResourceQuery.Decimal
