import ResourceQuery.Toml.Text

/-!
# Reading configuration documents

A document is a row of lines: assignments of values to keys, headers that open tables, comments and
empty lines. `Toml.read?` gives the table that all of them fill. Arrays and tables on one line may
be nested 79 deep, and a dotted key may have 79 parts.
-/

set_option autoImplicit false

namespace ResourceQuery.Toml

open Reading

/-- How deep values may be nested, and how many parts a key may have. -/
def maxDepth : Nat := 79

/-! ## What is skipped -/

/-- What is left of a text after something that may be empty. -/
abbrev Left (text : List Char) := { rest : List Char // rest.length ≤ text.length }

/-- What is left of a longer text. -/
def Left.within {inner text : List Char} (left : Left inner) (h : inner.length ≤ text.length) :
    Left text :=
  ⟨left.1, Nat.le_trans left.2 h⟩

mutual

/-- Skips blanks, line breaks and comments. -/
def skipAll : (text : List Char) → Option (Left text)
  | [] => some ⟨[], Nat.le_refl _⟩
  | '\n' :: rest => (skipAll rest).map (·.within (le_next _))
  | '\r' :: '\n' :: rest => (skipAll rest).map (·.within (le_second _))
  | '#' :: rest => (skipComment rest).map (·.within (le_next _))
  | c :: rest =>
    if isBlank c then (skipAll rest).map (·.within (le_next _)) else some ⟨c :: rest, Nat.le_refl _⟩

/-- Skips the rest of a comment, which ends with its line, and what may be skipped after it. -/
def skipComment : (text : List Char) → Option (Left text)
  | [] => none
  | '\n' :: rest => (skipAll rest).map (·.within (le_next _))
  | '\r' :: '\n' :: rest => (skipAll rest).map (·.within (le_second _))
  | c :: rest => if isTextChar c then (skipComment rest).map (·.within (le_next _)) else none

end

/-- Skips a comment up to the end of its line. -/
def skipRemark : (text : List Char) → Option (Left text)
  | [] => some ⟨[], Nat.le_refl _⟩
  | '\n' :: rest => some ⟨rest, le_next _⟩
  | '\r' :: '\n' :: rest => some ⟨rest, le_second _⟩
  | c :: rest => if isTextChar c then (skipRemark rest).map (·.within (le_next _)) else none

/-- Skips the rest of a line that holds nothing more but a comment. -/
def skipLine : (text : List Char) → Option (Left text)
  | [] => some ⟨[], Nat.le_refl _⟩
  | '\n' :: rest => some ⟨rest, le_next _⟩
  | '\r' :: '\n' :: rest => some ⟨rest, le_second _⟩
  | '#' :: rest => (skipRemark rest).map (·.within (le_next _))
  | c :: rest => if isBlank c then (skipLine rest).map (·.within (le_next _)) else none

/-! ## Keys -/

def isKeyChar (c : Char) : Bool :=
  isDigit c || ('a' ≤ c && c ≤ 'z') || ('A' ≤ c && c ≤ 'Z') || c = '-' || c = '_'

/-- One part of a key: bare, or a text on one line. -/
def keyPart : Reader String := fun text =>
  if text.head? = some '"' ∨ text.head? = some '\'' then lineText text
  else (run isKeyChar text).map (·.map String.ofList)

/-- The parts of a key with dots between them, and blanks around each. -/
def keyParts : Reader (List String) := fun text =>
  match keyPart (text.dropWhile isBlank) with
  | none => none
  | some part =>
    have hskip := length_dropWhile_le isBlank text
    have hpart := part.shorter
    match h : part.rest.dropWhile isBlank with
    | '.' :: rest =>
      have hrest : rest.length < text.length := by
        have h₁ := length_dropWhile_le isBlank part.rest
        rw [h] at h₁
        simp only [List.length_cons] at h₁
        omega
      (keyParts rest).map fun more =>
        (more.map (part.value :: ·)).within (Nat.le_of_lt hrest)
    | rest =>
      some ⟨[part.value], rest, by
        have h₁ := length_dropWhile_le isBlank part.rest
        rw [h] at h₁
        omega⟩
termination_by text => text.length

/-- A key: all its parts but the last, and the last. -/
def key : Reader (List String × String) := fun text =>
  match keyParts text with
  | none => none
  | some parts =>
    match parts.value.getLast? with
    | none => none
    | some last =>
      if parts.value.length ≤ maxDepth then
        some (parts.map fun all => (all.dropLast, last))
      else none

/-! ## Values -/

/-- A value without brackets around it. A date and a time of day may have a blank between them. -/
def atom : Reader Toml := fun text =>
  match run isAtomChar text with
  | none => none
  | some first =>
    let alone := (atom? first.value).map fun value => first.map fun _ => value
    -- A blank may stand between a date and a time of day, and nowhere else in an atom.
    match h : first.rest with
    | ' ' :: next =>
      match run isAtomChar next with
      | none => alone
      | some second =>
        if isDate first.value && isZonedTime second.value then
          let joined := fun (time : List Char) => String.ofList (first.value ++ ' ' :: time)
          some <| (second.map fun time => .moment (joined time)).within (by
            have hfirst := first.shorter
            rw [h] at hfirst
            simp only [List.length_cons] at hfirst
            omega)
        else alone
    | _ => alone

/-- The items of an array, after its opening bracket. Line breaks and comments may stand around
every item, and a comma may follow the last. -/
def arrayItems (item : Reader Toml) : Reader (List Toml) := fun text =>
  match skipAll text with
  | none => none
  | some start =>
    if hclose : start.1.head? = some ']' then
      some ⟨[], start.1.tail, by
        have hstart := start.2
        cases hcase : start.1 with
        | nil => simp [hcase] at hclose
        | cons c rest =>
          rw [hcase] at hstart
          exact hstart⟩
    else
      match item start.1 with
      | none => none
      | some first =>
        match skipAll first.rest with
        | none => none
        | some after =>
          have hstart := start.2
          have hfirst := first.shorter
          match h : after.1 with
          -- Behind a comma the closing bracket may come at once.
          | ',' :: rest =>
            have hrest : rest.length < text.length := by
              have hafter := after.2
              rw [h] at hafter
              simp only [List.length_cons] at hafter
              omega
            (arrayItems item rest).map fun more =>
              (more.map (first.value :: ·)).within (Nat.le_of_lt hrest)
          | ']' :: rest =>
            some ⟨[first.value], rest, by
              have hafter := after.2
              rw [h] at hafter
              simp only [List.length_cons] at hafter
              omega⟩
          | _ => none
termination_by text => text.length

/-- A key, an equals sign and a value. -/
def assignment (value : Reader Toml) : Reader ((List String × String) × Toml) := fun text =>
  match key text with
  | none => none
  | some name =>
    match h : name.rest with
    | '=' :: rest =>
      (value (rest.dropWhile isBlank)).map fun taken =>
        (taken.map (name.value, ·)).within (by
          have hname := name.shorter
          have hskip := length_dropWhile_le isBlank rest
          rw [h] at hname
          simp only [List.length_cons] at hname
          omega)
    | _ => none

/-- The table that assignments fill. -/
def tableOf? (assignments : List ((List String × String) × Toml)) : Option Toml :=
  let filled := assignments.foldlM (fun (table : Table Node) (name, value) =>
    table.assign name.1 name.2 value) ⟨false, false, []⟩
  filled.map Table.toToml

/-- The assignments of a table on one line, after its opening brace. -/
def tableItems (value : Reader Toml) : Reader (List ((List String × String) × Toml)) := fun text =>
  match h : text.dropWhile isBlank with
  | '\x7d' :: rest =>
    some ⟨[], rest, by
      have hskip := length_dropWhile_le isBlank text
      rw [h] at hskip
      exact hskip⟩
  | _ => row (assignment value) isBlank '\x7d' text

/-- A value with at most `depth` levels of arrays and tables on one line. -/
def readValue : (depth : Nat) → Reader Toml
  | 0 => fun text =>
    if text.head? = some '"' ∨ text.head? = some '\'' then (anyText text).map (·.map .string)
    else atom text
  | depth + 1 => fun text =>
    match text with
    | '[' :: rest =>
      (arrayItems (readValue depth) rest).map fun items => (items.map .array).within (le_next _)
    | '\x7b' :: rest =>
      match tableItems (readValue depth) rest with
      | none => none
      | some items => (tableOf? items.value).map fun table =>
          (items.map fun _ => table).within (le_next _)
    | text =>
      if text.head? = some '"' ∨ text.head? = some '\'' then (anyText text).map (·.map .string)
      else atom text

/-! ## Lines -/

/-- The document read so far: the table of everything in it, and the keys of the open table. -/
structure Draft where
  root : Table Node
  current : List String

def Draft.empty : Draft := ⟨⟨false, false, []⟩, []⟩

def Draft.assign (draft : Draft) (name : List String × String) (value : Toml) : Option Draft :=
  (Table.edit false (·.assign name.1 name.2 value) draft.current draft.root).map
    (⟨·, draft.current⟩)

def Draft.header (draft : Draft) (doubled : Bool) (name : List String × String) : Option Draft :=
  let opened := if doubled then draft.root.openNext name.1 name.2
    else draft.root.openTable name.1 name.2
  opened.map (⟨·, name.1 ++ [name.2]⟩)

/-- A line of a document. -/
inductive Line
  | blank
  | assign (name : List String × String) (value : Toml)
  | header (doubled : Bool) (name : List String × String)

def Draft.add (draft : Draft) : Line → Option Draft
  | .blank => some draft
  | .assign name value => draft.assign name value
  | .header doubled name => draft.header doubled name

/-- A header in single or double brackets, without the rest of its line. -/
def header : Reader Line := fun text =>
  match text with
  | '[' :: '[' :: rest =>
    match key rest with
    | none => none
    | some name =>
      match h : name.rest with
      | ']' :: ']' :: rest' => some ⟨.header true name.value, rest', by
          have hname := name.shorter
          rw [h] at hname
          simp only [List.length_cons] at hname ⊢
          omega⟩
      | _ => none
  | '[' :: rest =>
    match key rest with
    | none => none
    | some name =>
      match h : name.rest with
      | ']' :: rest' => some ⟨.header false name.value, rest', by
          have hname := name.shorter
          rw [h] at hname
          simp only [List.length_cons] at hname ⊢
          omega⟩
      | _ => none
  | _ => none

/-- A line without a header or an assignment. -/
def blankLine : Reader Line := fun text =>
  match text with
  | '\n' :: rest => some ⟨.blank, rest, lt_next _⟩
  | '\r' :: '\n' :: rest => some ⟨.blank, rest, lt_second _⟩
  | '#' :: rest =>
    (skipRemark rest).map fun left => ⟨.blank, left.1, Nat.lt_succ_of_le left.2⟩
  | _ => none

/-- A header or an assignment, up to the end of its line. -/
def filledLine : Reader Line := fun text =>
  let content :=
    if text.head? = some '[' then header text
    else (assignment (readValue maxDepth) text).map (·.map fun (name, value) => .assign name value)
  match content with
  | none => none
  | some line =>
    (skipLine line.rest).map fun left =>
      ⟨line.value, left.1, Nat.lt_of_le_of_lt left.2 line.shorter⟩

/-- A line, from its first character that is not blank on. -/
def line : Reader Line := fun text =>
  if text.head?.any fun c => c = '\n' || c = '\r' || c = '#' then blankLine text
  else filledLine text

def readLines (draft : Draft) (text : List Char) : Option Draft :=
  let start := text.dropWhile isBlank
  if start.isEmpty then some draft
  else
    match line start with
    | none => none
    | some taken =>
      have : taken.rest.length < text.length :=
        Nat.lt_of_lt_of_le taken.shorter (length_dropWhile_le isBlank text)
      match draft.add taken.value with
      | none => none
      | some next => readLines next taken.rest
termination_by text.length

/-- The table that a document describes. A mark of the byte order in front is skipped. -/
def read? (document : String) : Option Toml :=
  let text := match document.toList with
    | '\uFEFF' :: rest => rest
    | text => text
  (readLines .empty text).map fun draft => Table.toToml draft.root

end ResourceQuery.Toml
