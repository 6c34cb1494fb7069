import ResourceQuery.Decimal.Reading
import ResourceQuery.Toml

/-!
# Atoms of configuration documents

Values that are written without quotes or brackets: truth values, whole numbers in four bases,
floats, dates and times. Each is decided on a whole run of characters, since no other value may
follow an atom without a blank, a comma or a bracket.
-/

set_option autoImplicit false

namespace ResourceQuery.Toml

def isDigit (c : Char) : Bool := '0' ≤ c && c ≤ '9'

def isHexDigit (c : Char) : Bool :=
  isDigit c || ('a' ≤ c && c ≤ 'f') || ('A' ≤ c && c ≤ 'F')

def digitValue (c : Char) : Nat :=
  if isDigit c then c.toNat - '0'.toNat
  else if 'a' ≤ c then c.toNat - 'a'.toNat + 10
  else c.toNat - 'A'.toNat + 10

/-- The number that digits write in a base. -/
def numberIn (base : Nat) (digits : List Char) : Nat :=
  digits.foldl (fun n c => n * base + digitValue c) 0

/-- The characters of atoms. -/
def isAtomChar (c : Char) : Bool :=
  isDigit c || ('a' ≤ c && c ≤ 'z') || ('A' ≤ c && c ≤ 'Z')
    || c = '+' || c = '-' || c = '_' || c = '.' || c = ':'

/-- A row of digits, at least one, with single underscores between digits only. -/
def isDigitRow (digit : Char → Bool) : List Char → Bool
  | [] => false
  | [c] => digit c
  | c :: '_' :: rest => digit c && isDigitRow digit rest
  | c :: rest => digit c && isDigitRow digit rest

/-- A text without the underscores that group its digits. -/
def ungrouped (text : List Char) : List Char := text.filter (· ≠ '_')

/-- Whether there is a minus in front, and what follows a sign. -/
def splitSign (text : List Char) : Bool × List Char :=
  match text with
  | '-' :: rest => (true, rest)
  | '+' :: rest => (false, rest)
  | rest => (false, rest)

/-! ## Whole numbers -/

/-- A row of decimal digits without a superfluous zero in front. -/
def isDecimal (text : List Char) : Bool :=
  isDigitRow isDigit text && (text.head? ≠ some '0' || text.length = 1)

/-- A whole number of 64 bits, with its sign. -/
def signed? (negative : Bool) (magnitude : Nat) : Option Int :=
  if negative then if magnitude ≤ 9223372036854775808 then some (-magnitude) else none
  else if magnitude < 9223372036854775808 then some magnitude else none

/-- A whole number: in base ten with an optional sign, or in another base after its mark. -/
def integer? (text : List Char) : Option Int :=
  let based (base : Nat) (digit : Char → Bool) (digits : List Char) : Option Int :=
    if isDigitRow digit digits then signed? false (numberIn base (ungrouped digits)) else none
  match text with
  | '0' :: 'x' :: digits => based 16 isHexDigit digits
  | '0' :: 'o' :: digits => based 8 (fun c => '0' ≤ c && c ≤ '7') digits
  | '0' :: 'b' :: digits => based 2 (fun c => c = '0' || c = '1') digits
  | _ =>
    let (negative, digits) := splitSign text
    if isDecimal digits then signed? negative (numberIn 10 (ungrouped digits)) else none

/-! ## Floats -/

/-- The exponent after its letter. -/
def exponent? (text : List Char) : Option Int :=
  let (negative, digits) := splitSign text
  if isDigitRow isDigit digits then
    let magnitude : Int := numberIn 10 (ungrouped digits)
    some (if negative then -magnitude else magnitude)
  else none

def isExponentMark (c : Char) : Bool := c = 'e' || c = 'E'

/-- A finite float: a whole part, and a fraction or an exponent or both. One that is too large is
refused, one that is too small below zero is infinite. -/
def finiteFloat? (text : List Char) : Option Float := do
  let (negative, body) := splitSign text
  let mantissa := body.takeWhile fun c => !isExponentMark c
  let exponent ←
    match body.dropWhile fun c => !isExponentMark c with
    | [] => some none
    | _ :: rest => (exponent? rest).map some
  let whole := mantissa.takeWhile (· ≠ '.')
  let fraction ←
    match mantissa.dropWhile (· ≠ '.') with
    | [] => some none
    | _ :: rest => if isDigitRow isDigit rest then some (some (ungrouped rest)) else none
  -- With neither a fraction nor an exponent this is a whole number.
  if !isDecimal whole || (exponent.isNone && fraction.isNone) then none
  else
    let places := fraction.getD []
    let digits := numberIn 10 (ungrouped whole ++ places)
    let x := Decimal.nearest digits (exponent.getD 0 - places.length)
    if negative then some (-x) else if x.isInf then none else some x

/-- A float that has a name instead of digits. -/
def namedFloat? (text : List Char) : Option Float :=
  let (negative, name) := splitSign text
  let signed (x : Float) : Float := if negative then -x else x
  if name = ['i', 'n', 'f'] then some (signed (1 / 0))
  else if name = ['n', 'a', 'n'] then some (signed (0 / 0))
  else none

/-! ## Dates and times -/

/-- The number that two digits write, if it lies between two bounds. -/
def twoDigits? (low high : Nat) (a b : Char) : Option Nat :=
  if isDigit a && isDigit b then
    let n := numberIn 10 [a, b]
    if low ≤ n ∧ n ≤ high then some n else none
  else none

/-- The number of days of a month. -/
def daysIn (year month : Nat) : Nat :=
  if month = 2 then
    if year % 4 = 0 ∧ (year % 100 ≠ 0 ∨ year % 400 = 0) then 29 else 28
  else if month = 4 ∨ month = 6 ∨ month = 9 ∨ month = 11 then 30
  else 31

/-- A date at the front of a text, and what follows it. -/
def afterDate? (text : List Char) : Option (List Char) :=
  match text with
  | y₁ :: y₂ :: y₃ :: y₄ :: '-' :: m₁ :: m₂ :: '-' :: d₁ :: d₂ :: rest => do
    if !([y₁, y₂, y₃, y₄].all isDigit) then none
    let month ← twoDigits? 1 12 m₁ m₂
    let day ← twoDigits? 1 31 d₁ d₂
    if day ≤ daysIn (numberIn 10 [y₁, y₂, y₃, y₄]) month then some rest else none
  | _ => none

/-- A time of day at the front of a text, and what follows it. -/
def afterTime? (text : List Char) : Option (List Char) :=
  match text with
  | h₁ :: h₂ :: ':' :: m₁ :: m₂ :: ':' :: s₁ :: s₂ :: rest => do
    let _ ← twoDigits? 0 23 h₁ h₂
    let _ ← twoDigits? 0 59 m₁ m₂
    let _ ← twoDigits? 0 60 s₁ s₂
    match rest with
    | '.' :: fraction =>
      if (fraction.takeWhile isDigit).isEmpty then none else some (fraction.dropWhile isDigit)
    | rest => some rest
  | _ => none

def isOffset (text : List Char) : Bool :=
  match text with
  | ['Z'] => true
  | ['z'] => true
  | [sign, h₁, h₂, ':', m₁, m₂] =>
    (sign = '+' || sign = '-') && (twoDigits? 0 23 h₁ h₂).isSome && (twoDigits? 0 59 m₁ m₂).isSome
  | _ => false

def isZonedTime (text : List Char) : Bool :=
  match afterTime? text with
  | some rest => rest.isEmpty || isOffset rest
  | none => false

def isDate (text : List Char) : Bool := afterDate? text = some []

/-- A date and a time, a date, or a time. -/
def isMoment (text : List Char) : Bool :=
  match afterDate? text with
  | some [] => true
  | some (c :: time) => (c = 'T' || c = 't') && isZonedTime time
  | none => afterTime? text = some []

def atom? (text : List Char) : Option Toml :=
  if text = ['t', 'r', 'u', 'e'] then some (.boolean true)
  else if text = ['f', 'a', 'l', 's', 'e'] then some (.boolean false)
  else if isMoment text then some (.moment (String.ofList text))
  else
    match integer? text with
    | some value => some (.integer value)
    | none => ((finiteFloat? text).or (namedFloat? text)).map .float

end ResourceQuery.Toml
