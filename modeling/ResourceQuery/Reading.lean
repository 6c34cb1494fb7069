/-!
# Reading from the front of a text

A reader takes a value off the front of a list of characters. What it leaves is shorter than what
it was given, and `Taken` carries the proof, so that a reader of rows of items ends because the
text does. Skipping takes nothing away for certain, so it is a plain function.
-/

set_option autoImplicit false

namespace ResourceQuery.Reading

/-- A value taken off the front of `text`, and what is left. -/
structure Taken (α : Type) (text : List Char) where
  value : α
  rest : List Char
  shorter : rest.length < text.length

abbrev Reader (α : Type) := (text : List Char) → Option (Taken α text)

namespace Taken

variable {α β : Type} {text inner : List Char}

def map (f : α → β) (t : Taken α text) : Taken β text := ⟨f t.value, t.rest, t.shorter⟩

/-- What was taken from a later part of a text was taken from the text. -/
def within (t : Taken α inner) (h : inner.length ≤ text.length) : Taken α text :=
  ⟨t.value, t.rest, Nat.lt_of_lt_of_le t.shorter h⟩

end Taken

/-! ## Lengths

The steps by which readers get shorter, in the form in which the readers below and elsewhere use
them. -/

theorem lt_next (rest : List Char) : rest.length < rest.length + 1 := Nat.lt_succ_self _

theorem lt_second (rest : List Char) : rest.length < rest.length + 2 := by omega

theorem le_next (rest : List Char) : rest.length ≤ rest.length + 1 := Nat.le_succ _

theorem le_second (rest : List Char) : rest.length ≤ rest.length + 2 := by omega

/-- Skipping characters makes a text no longer. -/
theorem length_dropWhile_le (p : Char → Bool) (text : List Char) :
    (text.dropWhile p).length ≤ text.length :=
  (List.dropWhile_suffix p).length_le

/-- A word at the front of the text stands for a value. -/
def word {α : Type} (spelling : List Char) (value : α) : Reader α := fun text =>
  if h : spelling ≠ [] ∧ spelling.isPrefixOf text then
    some ⟨value, text.drop spelling.length, by
      have hlen : spelling.length ≤ text.length := (List.isPrefixOf_iff_prefix.mp h.2).length_le
      have hpos : 0 < spelling.length := List.length_pos_iff.mpr h.1
      simp only [List.length_drop]
      omega⟩
  else none

/-- The longest run of characters with a property at the front of the text, if there is one. -/
def run (p : Char → Bool) : Reader (List Char) := fun text =>
  match text with
  | [] => none
  | c :: rest =>
    if p c then
      some ⟨c :: rest.takeWhile p, rest.dropWhile p, Nat.lt_succ_of_le (length_dropWhile_le p rest)⟩
    else none

/-- The items of a row up to its closing character, with a comma between two of them and any
number of blanks around each. -/
def row {α : Type} (item : Reader α) (blank : Char → Bool) (close : Char) : Reader (List α) :=
  fun text =>
    match item (text.dropWhile blank) with
    | none => none
    | some first =>
      have hskip := length_dropWhile_le blank text
      match h : first.rest.dropWhile blank with
      | [] => none
      | c :: rest =>
        have hrest : rest.length < text.length := by
          have h₁ := length_dropWhile_le blank first.rest
          have h₂ := first.shorter
          rw [h] at h₁
          simp only [List.length_cons] at h₁
          omega
        if c = close then some ⟨[first.value], rest, hrest⟩
        else if c = ',' then
          (row item blank close rest).map fun more =>
            (more.map (first.value :: ·)).within (Nat.le_of_lt hrest)
        else none
termination_by text => text.length

end ResourceQuery.Reading
