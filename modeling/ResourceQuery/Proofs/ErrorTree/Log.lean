import ResourceQuery.Log
import ResourceQuery.Proofs.ErrorTree.Conservation
import ResourceQuery.Proofs.Path.Text

/-!
# What the log of an expansion tells

The losses of an expansion can be read off its log, by the wording of the lines: a line tells of a
head that has no place in a list, of messages that replaced others, or of a number of errors that
were dropped below a slot. What a line tells is what its warning accounts for (`lost_eq_toldLost`). Main
statement: every flat error is a leaf of the tree, or the log tells its loss (`length_entries_eq`).
-/

set_option autoImplicit false

namespace ResourceQuery.ErrorTree

open Warning

/-! ## Lines by their wording -/

/-- A line begins with one phrase and ends with another. -/
def framed (front back line : String) : Bool :=
  front.toList.isPrefixOf line.toList && back.toList.isSuffixOf line.toList

def tellsNonIndexKey (line : String) : Bool :=
  framed "WARN Dropping non-index key '" "' in list of errors" line

def tellsOverwrite (line : String) : Bool :=
  framed "WARN Key '" " message(s) of an equivalent key" line
    && decide ("' overwrites ".toList <:+: line.toList)

/-- The number that a line tells of errors dropped below a slot. -/
def toldDropped? (line : String) : Option Nat :=
  let behind := line.toList.drop "WARN Dropping ".length
  let digits := behind.takeWhile Path.isDigit
  if framed "WARN Dropping " ", which has its own messages" line ∧ digits ≠ []
      ∧ " nested error path(s) under ".toList <+: behind.dropWhile Path.isDigit then
    some (Path.decimalValue digits)
  else none

def toldLost (line : String) : Nat :=
  (if tellsNonIndexKey line then 1 else 0) + (if tellsOverwrite line then 1 else 0)
    + (toldDropped? line).getD 0

theorem framed_eq_true (front middle back : String) :
    framed front back (front ++ middle ++ back) = true := by
  rw [framed, Bool.and_eq_true, List.isPrefixOf_iff_prefix, List.isSuffixOf_iff_suffix,
    String.toList_append, String.toList_append]
  exact ⟨⟨middle.toList ++ back.toList, (List.append_assoc ..).symm⟩, List.suffix_append _ _⟩

/-- A line that begins with another phrase does not begin with this one, if neither of them begins
with the other. -/
theorem framed_eq_false {front lead : String} (h : ¬ front.toList <+: lead.toList)
    (h' : ¬ lead.toList <+: front.toList) (back rest : String) :
    framed front back (lead ++ rest) = false := by
  rw [framed, Bool.and_eq_false_iff, Bool.eq_false_iff, Ne, List.isPrefixOf_iff_prefix,
    String.toList_append]
  refine .inl fun hfront => ?_
  rcases List.prefix_or_prefix_of_prefix hfront (List.prefix_append _ _) with hlead | hlead
  · exact h hlead
  · exact h' hlead

theorem toldDropped?_of_framed {line : String}
    (h : framed "WARN Dropping " ", which has its own messages" line = false) :
    toldDropped? line = none := by
  rw [toldDropped?, if_neg]
  rintro ⟨hframed, -⟩
  rw [h] at hframed
  cases hframed

/-! ## Lines of warnings -/

section Lines

variable (head path slot : String) (count replaced : Nat)

theorem line_nonIndexKey :
    (Warning.nonIndexKey head).event.line
      = "WARN Dropping non-index key '" ++ head ++ "' in list of errors" := by
  have hfront : "WARN " ++ "Dropping non-index key '" = "WARN Dropping non-index key '" := by
    decide
  have htext : (Warning.nonIndexKey head).text
      = "Dropping non-index key '" ++ head ++ "' in list of errors" := rfl
  rw [Warning.event, Event.line_warn, htext, ← hfront]
  simp only [String.append_assoc]

theorem line_overwrites :
    (Warning.overwrites path replaced).event.line
      = "WARN Key '" ++ (path ++ "' overwrites " ++ toString replaced)
        ++ " message(s) of an equivalent key" := by
  have hfront : "WARN " ++ "Key '" = "WARN Key '" := by decide
  have htext : (Warning.overwrites path replaced).text
      = "Key '" ++ path ++ "' overwrites " ++ toString replaced
        ++ " message(s) of an equivalent key" := rfl
  rw [Warning.event, Event.line_warn, htext, ← hfront]
  simp only [String.append_assoc]

/-- The line about errors that were dropped below a slot, however the slot is written. -/
def droppedLine : String :=
  "WARN Dropping " ++ (toString count ++ " nested error path(s) under " ++ slot)
    ++ ", which has its own messages"

/-- A warning about errors below a slot has such a line. -/
theorem line_droppedBelow {warning : Warning}
    (h : warning.text = "Dropping " ++ toString count ++ " nested error path(s) under " ++ slot
      ++ ", which has its own messages") :
    warning.event.line = droppedLine slot count := by
  have hfront : "WARN " ++ "Dropping " = "WARN Dropping " := by decide
  unfold droppedLine
  rw [Warning.event, Event.line_warn, h, ← hfront]
  simp only [String.append_assoc]

theorem toldLost_nonIndexKey : toldLost (Warning.nonIndexKey head).event.line = 1 := by
  have hdrop : tellsNonIndexKey (Warning.nonIndexKey head).event.line = true := by
    rw [line_nonIndexKey]
    exact framed_eq_true _ _ _
  have hoverwrite : tellsOverwrite (Warning.nonIndexKey head).event.line = false := by
    rw [line_nonIndexKey, String.append_assoc, tellsOverwrite,
      framed_eq_false (by decide) (by decide), Bool.false_and]
  -- behind the first word there is no number
  have hcount : toldDropped? (Warning.nonIndexKey head).event.line = none := by
    rw [toldDropped?, if_neg]
    rintro ⟨-, hdigits, -⟩
    rw [line_nonIndexKey, String.append_assoc, String.toList_append] at hdigits
    exact hdigits rfl
  rw [toldLost, hdrop, hoverwrite, hcount]
  rfl

theorem toldLost_overwrites : toldLost (Warning.overwrites path replaced).event.line = 1 := by
  have hdrop : tellsNonIndexKey (Warning.overwrites path replaced).event.line = false := by
    rw [line_overwrites, String.append_assoc]
    exact framed_eq_false (by decide) (by decide) _ _
  have hoverwrite : tellsOverwrite (Warning.overwrites path replaced).event.line = true := by
    rw [line_overwrites, tellsOverwrite, framed_eq_true, Bool.true_and, decide_eq_true_eq]
    simp only [String.toList_append, List.append_assoc]
    -- the phrase stands behind the path
    exact ⟨"WARN Key '".toList ++ path.toList, (toString replaced).toList
      ++ " message(s) of an equivalent key".toList, by simp only [List.append_assoc]⟩
  have hcount : toldDropped? (Warning.overwrites path replaced).event.line = none := by
    rw [line_overwrites, String.append_assoc]
    exact toldDropped?_of_framed (framed_eq_false (by decide) (by decide) _ _)
  rw [toldLost, hdrop, hoverwrite, hcount]
  rfl

theorem drop_droppedLine :
    (droppedLine slot count).toList.drop "WARN Dropping ".length
      = Nat.toDigits 10 count ++ (" nested error path(s) under ".toList
        ++ (slot.toList ++ ", which has its own messages".toList)) := by
  have hdigits : (toString count).toList = Nat.toDigits 10 count := Nat.toList_repr
  unfold droppedLine
  simp only [String.toList_append, hdigits, List.append_assoc]
  rfl

/-- The number of errors is read back from its digits. -/
theorem toldDropped?_droppedLine : toldDropped? (droppedLine slot count) = some count := by
  have hdigit : ∀ c ∈ Nat.toDigits 10 count, Path.isDigit c = true :=
    fun _ => Path.isDigit_of_mem_toDigits
  -- the phrase behind the digits begins with a blank, so they end there
  have htake : ((droppedLine slot count).toList.drop "WARN Dropping ".length).takeWhile Path.isDigit
      = Nat.toDigits 10 count := by
    rw [drop_droppedLine, List.takeWhile_append_of_pos hdigit]
    exact List.append_nil _
  have hrest : " nested error path(s) under ".toList
      <+: ((droppedLine slot count).toList.drop "WARN Dropping ".length).dropWhile
        Path.isDigit := by
    rw [drop_droppedLine, List.dropWhile_append_of_pos hdigit]
    exact List.prefix_append _ _
  have hframed : framed "WARN Dropping " ", which has its own messages" (droppedLine slot count)
      = true := framed_eq_true _ _ _
  rw [toldDropped?]
  simp only [htake]
  rw [if_pos ⟨hframed, Nat.toDigits_ne_nil, hrest⟩, Path.decimalValue_eq,
    Nat.ofDigitChars_ten_toDigits]

theorem toldLost_droppedLine : toldLost (droppedLine slot count) = count := by
  have hdrop : tellsNonIndexKey (droppedLine slot count) = false := by
    rw [tellsNonIndexKey, framed, Bool.and_eq_false_iff, Bool.eq_false_iff, Ne,
      List.isPrefixOf_iff_prefix]
    refine .inl fun hfront => ?_
    -- behind the first word the line has a digit, where the phrase goes on with a letter
    have hletters : "non-index key '".toList <+: Nat.toDigits 10 count
        ++ (" nested error path(s) under ".toList
          ++ (slot.toList ++ ", which has its own messages".toList)) := by
      rw [← drop_droppedLine]
      exact hfront.drop "WARN Dropping ".length
    cases hdigits : Nat.toDigits 10 count with
    | nil => exact Nat.toDigits_ne_nil hdigits
    | cons c rest =>
        rw [hdigits] at hletters
        obtain ⟨rfl, -⟩ := List.cons_prefix_cons.mp hletters
        have hdigit := Path.isDigit_of_mem_toDigits (hdigits ▸ List.mem_cons_self)
        exact absurd hdigit (by decide)
  have hoverwrite : tellsOverwrite (droppedLine slot count) = false := by
    unfold droppedLine
    rw [String.append_assoc, tellsOverwrite, framed_eq_false (by decide) (by decide),
      Bool.false_and]
  rw [toldLost, hdrop, hoverwrite, toldDropped?_droppedLine]
  simp

end Lines

/-- What the line of a warning tells is what the warning accounts for. -/
theorem lost_eq_toldLost (warning : Warning) : warning.lost = toldLost warning.event.line := by
  cases warning with
  | indexAboveLimit => decide +kernel
  | nonIndexKey head => rw [toldLost_nonIndexKey, Warning.lost]
  | overwrites path replaced => rw [toldLost_overwrites, Warning.lost]
  | droppedBelowIndex count index =>
      rw [line_droppedBelow (toString index) count rfl, toldLost_droppedLine, Warning.lost]
  | droppedBelowField count field =>
      rw [line_droppedBelow (Text.quote field) count rfl, toldLost_droppedLine, Warning.lost]

/-! ## The log of an expansion -/

theorem totalLost_eq_sum (warnings : List Warning) :
    totalLost warnings
      = ((warnings.map (·.event.line)).countP tellsNonIndexKey)
        + ((warnings.map (·.event.line)).countP tellsOverwrite)
        + ((warnings.map (·.event.line)).filterMap toldDropped?).sum := by
  induction warnings with
  | nil => rfl
  | cons warning rest ih =>
      have hcount : (List.filterMap toldDropped? (warning.event.line
          :: rest.map (·.event.line))).sum
          = (toldDropped? warning.event.line).getD 0
            + (List.filterMap toldDropped? (rest.map (·.event.line))).sum := by
        cases htold : toldDropped? warning.event.line with
        | none => rw [List.filterMap_cons_none htold, Option.getD_none, Nat.zero_add]
        | some count => rw [List.filterMap_cons_some htold, List.sum_cons, Option.getD_some]
      rw [totalLost_cons, ih, lost_eq_toldLost, toldLost, List.map_cons, List.countP_cons,
        List.countP_cons, hcount]
      omega

/-- **No error is lost without a line in the log.** Every flat error is a leaf of the tree, or the
log tells its loss: as a head that is no index, as messages that were replaced, or in the number of
those that were dropped below a slot. -/
theorem length_entries_eq (errors : FlatErrors) :
    errors.entries.length
      = (expand errors).leaves.length
        + (log errors).countP tellsNonIndexKey
        + (log errors).countP tellsOverwrite
        + ((log errors).filterMap toldDropped?).sum := by
  have hlength : errors.entries.length = (entriesOf errors).length := by
    rw [entriesOf, List.length_map]
  rw [hlength, length_eq_leaves_add_lost, ← expand, ← warnings, totalLost_eq_sum, ← log]
  omega

end ResourceQuery.ErrorTree
