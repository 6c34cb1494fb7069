/-!
# The shortest decimal of a float

A finite float is `significand · 2 ^ scale`, and the reals nearer to it than to any other float
form an interval around it. `shortest` finds the fewest decimal digits that name a point of that
interval, and of the points with so few digits the one nearest to the float. All of it is exact
arithmetic on natural numbers: the interval is measured in quarters of `2 ^ scale`, because the gap
below a power of two is half as wide as the gap above it.
-/

set_option autoImplicit false

namespace ResourceQuery.Decimal

/-- The number `digits · 10 ^ exponent`. -/
structure Scaled where
  digits : Nat
  exponent : Int
  deriving DecidableEq, Repr, Inhabited

/-- The magnitude `significand · 2 ^ scale`. -/
structure Binary where
  significand : Nat
  scale : Int
  deriving DecidableEq, Repr, Inhabited

/-- Which way a number exactly between two candidates goes. -/
inductive Tie
  | even
  | up
  deriving DecidableEq, Repr

/-! ## Taking a float apart -/

/-- Whether the sign bit is set: so for `-0.0`, too. -/
def isNegative (x : Float) : Bool := x.toBits.toNat / Nat.pow 2 63 = 1

/-- The magnitude of a finite float. The eleven bits below the sign are the exponent; the hidden
leading bit is absent when they are all zero. -/
def Binary.ofFloat (x : Float) : Binary :=
  let bits := x.toBits.toNat % Nat.pow 2 63
  let exponent : Nat := bits / Nat.pow 2 52
  let fraction := bits % Nat.pow 2 52
  if exponent = 0 then ⟨fraction, -1074⟩ else ⟨Nat.pow 2 52 + fraction, (exponent : Int) - 1075⟩

namespace Binary

/-- The value, in quarters of `2 ^ scale`. -/
def quarters (b : Binary) : Nat := 4 * b.significand

/-- The lower end of the interval that rounds to `b`. Below a power of two the floats lie twice as
close, so the end is one quarter away instead of two. -/
def lower (b : Binary) : Nat :=
  if b.significand = Nat.pow 2 52 ∧ b.scale > -1074 then b.quarters - 1 else b.quarters - 2

def upper (b : Binary) : Nat := b.quarters + 2

/-- A quarter of `2 ^ scale` is `(ratio b unit).1 / (ratio b unit).2` times `10 ^ unit`. -/
def ratio (b : Binary) (unit : Int) : Nat × Nat :=
  (Nat.pow 2 (b.scale - 2).toNat * Nat.pow 10 (-unit).toNat,
    Nat.pow 2 (2 - b.scale).toNat * Nat.pow 10 unit.toNat)

/-- Whether `digits · 10 ^ unit` rounds to `b`. The ends of the interval belong to the float whose
significand is even. -/
def covers (b : Binary) (unit : Int) (digits : Nat) : Bool :=
  let (num, den) := b.ratio unit
  if b.significand % 2 = 0 then
    b.lower * num ≤ digits * den && digits * den ≤ b.upper * num
  else
    b.lower * num < digits * den && digits * den < b.upper * num

/-- The multiple of `10 ^ unit` just below or at `b`. -/
def floorAt (b : Binary) (unit : Int) : Nat :=
  let (num, den) := b.ratio unit
  b.quarters * num / den

/-- Whether the multiple of `10 ^ unit` just above `b` is nearer than the one below. -/
def prefersAbove (b : Binary) (tie : Tie) (unit : Int) : Bool :=
  let (num, den) := b.ratio unit
  let below := b.floorAt unit
  let twice := 2 * (b.quarters * num)
  let middle := (2 * below + 1) * den
  if twice = middle then
    match tie with
    | .even => below % 2 = 1
    | .up => true
  else
    middle < twice

/-- The multiple of `10 ^ unit` that rounds to `b`, if there is one: the nearer of the two
neighbours of `b` where both do. -/
def onGrid? (b : Binary) (tie : Tie) (unit : Int) : Option Nat :=
  let below := b.floorAt unit
  match b.covers unit below, b.covers unit (below + 1) with
  | true, true => some (if b.prefersAbove tie unit then below + 1 else below)
  | true, false => some below
  | false, true => some (below + 1)
  | false, false => none

/-- Whether `10 ^ power` is at most `b`. -/
def reaches (b : Binary) (power : Int) : Bool :=
  let (num, den) := b.ratio power
  den ≤ b.quarters * num

/-- The greatest power of ten that is at most `b`: the estimate from the position of the leading
bit is off by at most one. -/
def leadingPower (b : Binary) : Int :=
  -- The logarithm of two to base ten, to five places.
  let estimate := ((Nat.log2 b.significand : Int) + b.scale) * 30103 / 100000
  if b.reaches (estimate + 1) then estimate + 1
  else if b.reaches estimate then estimate
  else estimate - 1

end Binary

/-! ## The search -/

/-- Digits that are a multiple of ten, written one power higher. -/
def Scaled.dropZero (d : Scaled) : Scaled :=
  if d.digits % 10 = 0 then ⟨d.digits / 10, d.exponent + 1⟩ else d

/-- The decimal with the fewest digits that rounds to `b`, the nearest of those, with ties broken
as told. Seventeen digits are always enough. -/
def shortest (tie : Tie) (b : Binary) : Scaled :=
  if b.significand = 0 then ⟨0, 0⟩
  else
    let top := b.leadingPower
    let found := (List.range 17).findSome? fun (i : Nat) =>
      (b.onGrid? tie (top - i)).map fun digits => (⟨digits, top - i⟩ : Scaled)
    (found.getD ⟨b.floorAt (top - 16), top - 16⟩).dropZero

end ResourceQuery.Decimal
