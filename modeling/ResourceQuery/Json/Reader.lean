import ResourceQuery.Decimal.Reading
import ResourceQuery.Json
import ResourceQuery.Reading

/-!
# Reading data values

`Json.read?` reads a text that holds exactly one value. Arrays and objects may be nested 127 deep.
Of two fields with one name the later one counts. A number without a fraction or an exponent is a
whole number where it fits in 64 bits, signed if it is negative; every other number is a float, and
so is negative zero.
-/

set_option autoImplicit false

namespace ResourceQuery.Json

open Reading

/-- How deep arrays and objects may be nested. -/
def maxDepth : Nat := 127

/-- The characters that may stand between the parts of a value. -/
def isBlank (c : Char) : Bool := c = ' ' || c = '\t' || c = '\n' || c = '\r'

def isDigit (c : Char) : Bool := '0' ≤ c && c ≤ '9'

/-! ## Numbers -/

/-- The parts of a written number. -/
structure Numeral where
  negative : Bool
  whole : List Char
  fraction : Option (List Char)
  exponent : Option Int

/-- The characters that numbers are written with. -/
def isNumeric (c : Char) : Bool :=
  isDigit c || c = '+' || c = '-' || c = '.' || c = 'e' || c = 'E'

/-- The exponent that follows its letter, with or without a sign. -/
def exponentOf? (text : List Char) : Option Int :=
  let number (digits : List Char) : Option Nat :=
    if digits ≠ [] ∧ digits.all isDigit then some (Decimal.natOfDigits digits) else none
  match text with
  | '-' :: digits => (number digits).map fun n => -(n : Int)
  | '+' :: digits => (number digits).map fun n => (n : Int)
  | digits => (number digits).map fun n => (n : Int)

/-- The parts of a whole run of numeric characters. The whole part has no superfluous zero in
front, and at least one digit follows a point. -/
def Numeral.ofRun? (run : List Char) : Option Numeral :=
  let negative := run.head? = some '-'
  let body := if negative then run.tail else run
  let whole := body.takeWhile isDigit
  if whole = [] ∨ (whole.head? = some '0' ∧ whole.length > 1) then none
  else
    -- An exponent is the last part of a number.
    let exponentAfter (rest : List Char) : Option (Option Int) :=
      match rest with
      | [] => some none
      | c :: digits => if c = 'e' ∨ c = 'E' then (exponentOf? digits).map some else none
    match body.dropWhile isDigit with
    | '.' :: rest =>
      let fraction := rest.takeWhile isDigit
      if fraction = [] then none
      else (exponentAfter (rest.dropWhile isDigit)).map (⟨negative, whole, some fraction, ·⟩)
    | rest => (exponentAfter rest).map (⟨negative, whole, none, ·⟩)

/-- The value of a written number, or `none` where no float is large enough. -/
def Numeral.value? (n : Numeral) : Option Number :=
  let (wholePart, uncounted) := Decimal.takeWhole 0 n.whole
  if n.fraction.isNone ∧ n.exponent.isNone ∧ uncounted = 0 then
    if n.negative = false then some (.int wholePart)
    else if wholePart = 0 ∨ wholePart > 9223372036854775808 then
      some (.float (-wholePart.toUInt64.toFloat))
    else some (.int (-wholePart))
  else
    let (significand, places) := Decimal.takeFraction wholePart (n.fraction.getD [])
    let power := (uncounted : Int) - places + n.exponent.getD 0
    (Decimal.scaled significand power).map fun x => .float (if n.negative then -x else x)

def readNumber : Reader Number := fun text =>
  match run isNumeric text with
  | none => none
  | some taken =>
    match (Numeral.ofRun? taken.value).bind Numeral.value? with
    | none => none
    | some value => some (taken.map fun _ => value)

/-! ## Text -/

def hexValue? (c : Char) : Option Nat :=
  if '0' ≤ c ∧ c ≤ '9' then some (c.toNat - '0'.toNat)
  else if 'a' ≤ c ∧ c ≤ 'f' then some (c.toNat - 'a'.toNat + 10)
  else if 'A' ≤ c ∧ c ≤ 'F' then some (c.toNat - 'A'.toNat + 10)
  else none

/-- The number that four hexadecimal digits write. -/
def unit? (a b c d : Char) : Option Nat := do
  let a ← hexValue? a
  let b ← hexValue? b
  let c ← hexValue? c
  let d ← hexValue? d
  return ((a * 16 + b) * 16 + c) * 16 + d

/-- The first of a pair of numbers that stand for one character. -/
def isHighSurrogate (unit : Nat) : Bool := 0xD800 ≤ unit && unit ≤ 0xDBFF

/-- The second of a pair of numbers that stand for one character. -/
def isLowSurrogate (unit : Nat) : Bool := 0xDC00 ≤ unit && unit ≤ 0xDFFF

def shortEscape? (c : Char) : Option Char :=
  match c with
  | '"' => some '"'
  | '\\' => some '\\'
  | '/' => some '/'
  | 'b' => some '\x08'
  | 'f' => some '\x0c'
  | 'n' => some '\n'
  | 'r' => some '\r'
  | 't' => some '\t'
  | _ => none

/-- The characters of a text value up to its closing quote. A character by its number takes one
escape, or two that form a pair; half a pair stands for no character. -/
def textBody : (text : List Char) → Option (Taken (List Char) text)
  | [] => none
  | '"' :: rest => some ⟨[], rest, lt_next _⟩
  | '\\' :: 'u' :: a :: b :: c :: d :: rest =>
    match unit? a b c d with
    | none => none
    | some unit =>
      -- Half a pair needs the other half right behind it.
      if isHighSurrogate unit then
        match rest with
        | '\\' :: 'u' :: a' :: b' :: c' :: d' :: rest' =>
          match unit? a' b' c' d' with
          | none => none
          | some low =>
            if isLowSurrogate low then
              let code := 0x10000 + (unit - 0xD800) * 0x400 + (low - 0xDC00)
              (textBody rest').map fun more =>
                (more.map (Char.ofNat code :: ·)).within (by simp only [List.length_cons]; omega)
            else none
        | _ => none
      else if isLowSurrogate unit then none
      else
        (textBody rest).map fun more =>
          (more.map (Char.ofNat unit :: ·)).within (by simp only [List.length_cons]; omega)
  | '\\' :: e :: rest =>
    match shortEscape? e with
    | none => none
    | some c =>
      (textBody rest).map fun more =>
        (more.map (c :: ·)).within (by simp only [List.length_cons]; omega)
  | c :: rest =>
    -- Control characters have to be escaped.
    if c = '\\' ∨ c.toNat < 0x20 then none
    else
      (textBody rest).map fun more =>
        (more.map (c :: ·)).within (by simp only [List.length_cons]; omega)

def readText : Reader String := fun text =>
  match text with
  | '"' :: rest =>
    (textBody rest).map fun taken => (taken.map String.ofList).within (le_next _)
  | _ => none

/-! ## Values -/

def readScalar : Reader Json := fun text =>
  match text.head? with
  | some 'n' => word ['n', 'u', 'l', 'l'] Json.null text
  | some 't' => word ['t', 'r', 'u', 'e'] (Json.bool true) text
  | some 'f' => word ['f', 'a', 'l', 's', 'e'] (Json.bool false) text
  | some '"' => (readText text).map (·.map .string)
  | _ => (readNumber text).map (·.map .number)

/-- A field: its name, a colon and its value. -/
def fieldOf (value : Reader Json) : Reader (String × Json) := fun text =>
  match readText text with
  | none => none
  | some name =>
    match h : name.rest.dropWhile isBlank with
    | ':' :: rest =>
      (value (rest.dropWhile isBlank)).map fun taken =>
        (taken.map (name.value, ·)).within (by
          have h₁ := length_dropWhile_le isBlank name.rest
          have h₂ := length_dropWhile_le isBlank rest
          have h₃ := name.shorter
          rw [h] at h₁
          simp only [List.length_cons] at h₁
          omega)
    | _ => none

/-- The content of an array or object up to its closing character: nothing, or a row of items. -/
def content {α : Type} (item : Reader α) (close : Char) : Reader (List α) := fun text =>
  match h : text.dropWhile isBlank with
  | [] => none
  | c :: rest =>
    if c = close then
      some ⟨[], rest, by
        have h₁ := length_dropWhile_le isBlank text
        rw [h] at h₁
        exact h₁⟩
    else row item isBlank close text

/-- A value with at most `depth` levels of arrays and objects. -/
def readValue : (depth : Nat) → Reader Json
  | 0 => readScalar
  | depth + 1 => fun text =>
    match text with
    | '[' :: rest =>
      (content (readValue depth) ']' rest).map fun items => (items.map .array).within (le_next _)
    | '\x7b' :: rest =>
      (content (fieldOf (readValue depth)) '\x7d' rest).map fun pairs =>
        (pairs.map fun fields => .object (Ascending.ofPairs fields)).within (le_next _)
    | text => readScalar text

/-- The value that a text holds, if it holds exactly one. -/
def read? (text : String) : Option Json :=
  match readValue maxDepth (text.toList.dropWhile isBlank) with
  | none => none
  | some taken => if taken.rest.all isBlank then some taken.value else none

end ResourceQuery.Json
