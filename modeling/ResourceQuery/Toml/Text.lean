import ResourceQuery.Reading
import ResourceQuery.Toml.Atom

/-!
# Texts of configuration documents

Four ways to write a text: between double quotes, where a backslash starts an escape; between
single quotes, where it does not; and both over several lines between three quotes. A line break in
a text over several lines is one line feed, however the document writes it, and a break right after
the opening quotes does not count. Before the closing quotes up to two quotes belong to the text.
-/

set_option autoImplicit false

namespace ResourceQuery.Toml

open Reading

def isBlank (c : Char) : Bool := c = ' ' || c = '\t'

/-- A character that may stand in a comment or a text: no control character but the tab. -/
def isTextChar (c : Char) : Bool := c = '\t' || (0x20 ≤ c.toNat && c.toNat ≠ 0x7F)

def charOf? (digits : List Char) : Option Char :=
  let n := numberIn 16 digits
  if digits.all isHexDigit ∧ n.isValidChar then some (Char.ofNat n) else none

/-- The character that an escape of one letter stands for. -/
def shortEscape? (c : Char) : Option Char :=
  match c with
  | 'b' => some '\x08'
  | 'f' => some '\x0c'
  | 'n' => some '\n'
  | 'r' => some '\r'
  | 't' => some '\t'
  | '"' => some '"'
  | '\\' => some '\\'
  | _ => none

/-- The character that an escape stands for, after its backslash. -/
def escape : Reader Char := fun text =>
  match text with
  | 'u' :: a :: b :: c :: d :: rest =>
    (charOf? [a, b, c, d]).map (⟨·, rest, by simp only [List.length_cons]; omega⟩)
  | 'U' :: a :: b :: c :: d :: e :: f :: g :: h :: rest =>
    (charOf? [a, b, c, d, e, f, g, h]).map (⟨·, rest, by simp only [List.length_cons]; omega⟩)
  | letter :: rest => (shortEscape? letter).map (⟨·, rest, lt_next _⟩)
  | [] => none

/-! ## On one line -/

/-- The characters up to the closing double quote. -/
def basicBody (text : List Char) : Option (Taken (List Char) text) :=
  match text with
  | [] => none
  | '"' :: rest => some ⟨[], rest, lt_next _⟩
  | '\\' :: rest =>
    match escape rest with
    | none => none
    | some taken =>
      have := taken.shorter
      (basicBody taken.rest).map fun more =>
        (more.map (taken.value :: ·)).within (by simp only [List.length_cons]; omega)
  | c :: rest =>
    if isTextChar c then
      (basicBody rest).map fun more => (more.map (c :: ·)).within (le_next _)
    else none
termination_by text.length

/-- The characters up to the closing single quote. -/
def literalBody : (text : List Char) → Option (Taken (List Char) text)
  | [] => none
  | '\'' :: rest => some ⟨[], rest, lt_next _⟩
  | c :: rest =>
    if isTextChar c then
      (literalBody rest).map fun more => (more.map (c :: ·)).within (le_next _)
    else none

/-! ## Over several lines -/

/-- A text without a line break at its front. -/
def dropBreak (text : List Char) : List Char :=
  match text with
  | '\n' :: rest => rest
  | '\r' :: '\n' :: rest => rest
  | text => text

/-- A line break at the front of a text. -/
def startsWithBreak (text : List Char) : Bool :=
  match text with
  | '\n' :: _ => true
  | '\r' :: '\n' :: _ => true
  | _ => false

theorem length_dropBreak_le (text : List Char) : (dropBreak text).length ≤ text.length := by
  unfold dropBreak
  split
  · simp
  · simp only [List.length_cons]
    omega
  · exact Nat.le_refl _

/-- The characters up to the three closing quotes. While `joining`, blanks and line breaks are left
out: a backslash at the end of a line joins it to what comes next. Escapes count where `escapes`
is set. -/
def multilineBody (quote : Char) (escapes joining : Bool) (text : List Char) :
    Option (Taken (List Char) text) :=
  match text with
  | [] => none
  | '\n' :: rest =>
    (multilineBody quote escapes joining rest).map fun more =>
      (more.map (if joining then id else ('\n' :: ·))).within (le_next _)
  | '\r' :: '\n' :: rest =>
    (multilineBody quote escapes joining rest).map fun more =>
      (more.map (if joining then id else ('\n' :: ·))).within (le_second _)
  | c :: rest =>
    if joining && isBlank c then
      (multilineBody quote escapes true rest).map fun more => more.within (le_next _)
    else if c = quote then
      if [quote, quote].isPrefixOf rest then
        -- Up to two quotes right before the closing ones belong to the text.
        let extra := ((rest.drop 2).take 2).takeWhile (· = quote)
        some ⟨extra, rest.drop (2 + extra.length), by
          simp only [List.length_cons, List.length_drop]; omega⟩
      else
        (multilineBody quote escapes false rest).map fun more =>
          (more.map (c :: ·)).within (le_next _)
    else if escapes && c = '\\' then
      -- A backslash before a line break is no escape.
      if startsWithBreak (rest.dropWhile isBlank) then
        (multilineBody quote escapes true rest).map fun more => more.within (le_next _)
      else
        match escape rest with
        | none => none
        | some taken =>
          have := taken.shorter
          (multilineBody quote escapes false taken.rest).map fun more =>
            (more.map (taken.value :: ·)).within (by simp only [List.length_cons]; omega)
    else if isTextChar c then
      (multilineBody quote escapes false rest).map fun more =>
        (more.map (c :: ·)).within (le_next _)
    else none
termination_by text.length

/-! ## Any text -/

/-- A text on one line. -/
def lineText : Reader String := fun text =>
  match text with
  | '"' :: rest => (basicBody rest).map fun taken => (taken.map String.ofList).within (le_next _)
  | '\'' :: rest => (literalBody rest).map fun taken => (taken.map String.ofList).within (le_next _)
  | _ => none

/-- A text over several lines, after its three opening quotes. -/
def multilineText (quote : Char) (escapes : Bool) : Reader String := fun text =>
  (multilineBody quote escapes false (dropBreak text)).map fun taken =>
    (taken.map String.ofList).within (length_dropBreak_le text)

/-- A text in any of the four ways. -/
def anyText : Reader String := fun text =>
  match text with
  | '"' :: '"' :: '"' :: rest =>
    (multilineText '"' true rest).map (·.within (by simp only [List.length_cons]; omega))
  | '\'' :: '\'' :: '\'' :: rest =>
    (multilineText '\'' false rest).map (·.within (by simp only [List.length_cons]; omega))
  | text => lineText text

end ResourceQuery.Toml
