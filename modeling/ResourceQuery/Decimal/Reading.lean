/-!
# Reading floats

Two ways from decimal digits to a float. `nearest` is the float nearest to `digits · 10 ^ exponent`
and is used where a text is read on its own. `scaled` is the cheaper rule of the data format: the
digits that fit in 64 bits become a float first, and the power of ten is applied to it with a
second rounding, so the last bit may differ from the nearest.
-/

set_option autoImplicit false

namespace ResourceQuery.Decimal

/-- Digit characters with their values; `none` for any other character. -/
def digitValue? (c : Char) : Option Nat :=
  if '0' ≤ c ∧ c ≤ '9' then some (c.toNat - '0'.toNat) else none

def natOfDigits (ds : List Char) : Nat :=
  ds.foldl (fun n c => n * 10 + (c.toNat - '0'.toNat)) 0

/-! ## The nearest float -/

/-- The float nearest to `digits · 10 ^ exponent`. Magnitudes far outside the range of floats are
settled without computing the power: at `10 ^ 310` everything is infinite and below `10 ^ (-330)`
everything is zero. -/
def nearest (digits : Nat) (exponent : Int) : Float :=
  let size := exponent + (Nat.toDigits 10 digits).length
  if digits = 0 ∨ size < -330 then 0
  else if size > 310 then 1 / 0
  else if exponent < 0 then Float.ofScientific digits true exponent.natAbs
  else Float.ofScientific digits false exponent.natAbs

/-- The float that a text of its own writes: an optional sign, then a name, or digits with an
optional point among them and an optional exponent. A text of another form is not a number. -/
def ofText (text : String) : Float :=
  let chars := text.toList
  let negative := chars.head? = some '-'
  let body := if negative ∨ chars.head? = some '+' then chars.tail else chars
  let isDigit (c : Char) : Bool := (digitValue? c).isSome
  let mantissa := body.takeWhile fun c => c ≠ 'e' ∧ c ≠ 'E'
  let power := (body.dropWhile fun c => c ≠ 'e' ∧ c ≠ 'E').tail
  let whole := mantissa.takeWhile (· ≠ '.')
  let places := (mantissa.dropWhile (· ≠ '.')).tail
  let below := power.head? = some '-'
  let exponent := if below ∨ power.head? = some '+' then power.tail else power
  let magnitude :=
    if ["inf", "infinity"].contains (String.ofList (body.map Char.toLower)) then 1 / 0
    -- A number has digits, and its exponent has some of its own.
    else if !(whole ++ places ++ exponent).all isDigit || (whole ++ places).isEmpty
        || (exponent.isEmpty && mantissa.length < body.length) then 0 / 0
    else
      let shift : Int := natOfDigits exponent
      nearest (natOfDigits (whole ++ places)) ((if below then -shift else shift) - places.length)
  if negative then -magnitude else magnitude

/-! ## The float by scaling -/

def significandBound : Nat := Nat.pow 2 64

/-- Adds the digits before the point to a significand as long as it stays below the bound. The
second component counts the digits from the first that did not fit on. -/
def takeWhole (significand : Nat) : List Char → Nat × Nat
  | [] => (significand, 0)
  | c :: rest =>
    let next := significand * 10 + (c.toNat - '0'.toNat)
    if next < significandBound then takeWhole next rest else (significand, rest.length + 1)

/-- Adds the digits after the point to a significand as long as it stays below the bound. The
second component counts the digits that fit; the others are dropped. -/
def takeFraction (significand : Nat) : List Char → Nat × Nat
  | [] => (significand, 0)
  | c :: rest =>
    let next := significand * 10 + (c.toNat - '0'.toNat)
    if next < significandBound then
      let (result, count) := takeFraction next rest
      (result, count + 1)
    else (significand, 0)

def tenTo (power : Nat) : Float := Float.ofScientific 1 false power

/-- Divides by `10 ^ power`, in steps of `10 ^ 308` as long as something is left. -/
def divideByPower (x : Float) (power : Nat) : Float :=
  if power ≤ 308 then x / tenTo power
  else if x == 0 then x
  else divideByPower (x / tenTo 308) (power - 308)
termination_by power

/-- A significand times a power of ten, or `none` where that is beyond every float. -/
def scaled (significand : Nat) (exponent : Int) : Option Float :=
  let x := significand.toUInt64.toFloat
  if exponent < 0 then some (divideByPower x exponent.natAbs)
  else if exponent ≤ 308 then
    let result := x * tenTo exponent.natAbs
    if result.isInf then none else some result
  else if significand = 0 then some x
  else none

end ResourceQuery.Decimal
