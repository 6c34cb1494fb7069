import ResourceQuery.Path
import ResourceQuery.Proofs.Text.Pieces

/-!
# Paths and indices as texts

Segments between dots and the text that they make up determine each other, as long as no segment has
a dot: `Path.text_ofText` and `Path.segments_ofText_intercalate`. Cutting a path at its first dot
takes off the first segment and leaves a shorter path: `Path.segments_of_cut_eq_some` and
`Path.length_lt_of_cut_eq_some`. An index and its digits determine each other, as long as the digits
do not start with a needless zero: `Path.index?_toString` and `Path.eq_toString_of_index?`.
-/

set_option autoImplicit false

namespace ResourceQuery.Path

/-! ## Segments between dots -/

theorem splitDots_eq_splitOn (text : List Char) :
    (splitDots text).1 :: (splitDots text).2 = text.splitOn '.' := by
  induction text with
  | nil => rfl
  | cons c rest ih =>
      rw [List.splitOn_cons_eq_if_modifyHead, ← ih]
      by_cases hc : c = '.'
      · simp [splitDots, hc]
      · simp [splitDots, hc]

theorem segments_ofText (text : String) :
    (ofText text).segments = (text.toList.splitOn '.').map String.ofList := by
  rw [← splitDots_eq_splitOn]
  rfl

/-- The segments of a path make up its text again. -/
theorem text_ofText (text : String) : (ofText text).text = text := by
  have hmap : ((text.toList.splitOn '.').map String.ofList).map String.toList
      = text.toList.splitOn '.' := by
    rw [List.map_map]
    exact (List.map_congr_left fun _ _ => String.toList_ofList).trans (List.map_id _)
  rw [← String.toList_inj, Path.text, segments_ofText, String.toList_intercalate, hmap]
  exact List.intercalate_splitOn '.'

/-- No segment of a path that is read from a text has a dot. -/
theorem dot_notMem_of_mem_ofText {text segment : String} (h : segment ∈ (ofText text).segments) :
    '.' ∉ segment.toList := by
  rw [segments_ofText, List.mem_map] at h
  obtain ⟨piece, hpiece, rfl⟩ := h
  rw [String.toList_ofList]
  exact Text.notMem_of_mem_splitOn hpiece

/-- Segments without dots can be read from the text that they make up. -/
theorem segments_ofText_intercalate {segments : List String} (hne : segments ≠ [])
    (h : ∀ segment ∈ segments, '.' ∉ segment.toList) :
    (ofText (".".intercalate segments)).segments = segments := by
  have hsplit : (['.'].intercalate (segments.map String.toList)).splitOn '.'
      = segments.map String.toList :=
    List.splitOn_intercalate '.' (by simpa using h) (by simpa using hne)
  rw [segments_ofText, String.toList_intercalate]
  refine (congrArg _ hsplit).trans ?_
  rw [List.map_map]
  exact (List.map_congr_left fun _ _ => String.ofList_toList).trans (List.map_id _)

/-- Two paths with a dot between them have the segments of the first and then those of the
second. -/
theorem segments_ofText_append (front back : String) :
    (ofText (front ++ "." ++ back)).segments
      = (ofText front).segments ++ (ofText back).segments := by
  have htext : (front ++ "." ++ back).toList = front.toList ++ '.' :: back.toList := by
    simp [String.toList_append]
  rw [segments_ofText, segments_ofText, segments_ofText, htext, List.splitOn_append_cons_self,
    List.map_append]

/-- A text without a dot is its own segment. -/
theorem segments_ofText_of_dot_notMem {text : String} (h : '.' ∉ text.toList) :
    (ofText text).segments = [text] := by
  rw [segments_ofText, List.splitOn_eq_singleton h, List.map_singleton, String.ofList_toList]

/-! ## Cutting at the first dot -/

/-- The characters before the first dot have no dot, and together with the dot and the characters
after it they are the whole text. -/
theorem cutAtDot_spec (text : List Char) :
    '.' ∉ (cutAtDot text).1
      ∧ (cutAtDot text).1 ++ (cutAtDot text).2.elim [] ('.' :: ·) = text := by
  induction text with
  | nil => exact ⟨List.not_mem_nil, rfl⟩
  | cons c rest ih =>
      obtain ⟨hdot, htext⟩ := ih
      rw [cutAtDot]
      split
      · rename_i hc
        exact ⟨List.not_mem_nil, congrArg (· :: rest) hc.symm⟩
      · rename_i hc
        exact ⟨List.not_mem_cons_of_ne_of_not_mem (Ne.symm hc) hdot, congrArg (c :: ·) htext⟩

/-- A text that is not cut has no dot. -/
theorem eq_of_cut_eq_none {text head : String} (h : cut text = (head, none)) :
    text = head ∧ '.' ∉ text.toList := by
  obtain ⟨hdot, htext⟩ := cutAtDot_spec text.toList
  obtain ⟨hhead, hafter⟩ := Prod.mk.inj h
  rw [Option.map_eq_none_iff.mp hafter, Option.elim_none, List.append_nil] at htext
  rw [htext] at hdot hhead
  exact ⟨String.ofList_toList.symm.trans hhead, hdot⟩

theorem segments_of_cut_eq_none {text head : String} (h : cut text = (head, none)) :
    (ofText text).segments = [head] := by
  obtain ⟨rfl, hdot⟩ := eq_of_cut_eq_none h
  exact segments_ofText_of_dot_notMem hdot

/-- What is cut is put together again with a dot in between, and nothing is cut before that dot. -/
theorem eq_of_cut_eq_some {text head tail : String} (h : cut text = (head, some tail)) :
    text = head ++ "." ++ tail ∧ '.' ∉ head.toList := by
  obtain ⟨hdot, htext⟩ := cutAtDot_spec text.toList
  obtain ⟨rfl, hafter⟩ := Prod.mk.inj h
  obtain ⟨after, hcut, rfl⟩ := Option.map_eq_some_iff.mp hafter
  rw [hcut, Option.elim_some] at htext
  refine ⟨?_, by rwa [String.toList_ofList]⟩
  rw [← String.toList_inj]
  simpa [String.toList_append] using htext.symm

/-- The first segment is the text before the dot, and the others are those of the text after it. -/
theorem segments_of_cut_eq_some {text head tail : String} (h : cut text = (head, some tail)) :
    (ofText text).segments = head :: (ofText tail).segments := by
  obtain ⟨htext, hdot⟩ := eq_of_cut_eq_some h
  rw [htext, segments_ofText_append, segments_ofText_of_dot_notMem hdot, List.singleton_append]

/-- The text after the dot is shorter than the whole text. -/
theorem length_lt_of_cut_eq_some {text head tail : String} (h : cut text = (head, some tail)) :
    tail.length < text.length := by
  have hone : ".".length = 1 := rfl
  rw [(eq_of_cut_eq_some h).1, String.length_append, String.length_append, hone]
  omega

/-! ## Indices -/

theorem decimalValue_eq (digits : List Char) :
    decimalValue digits = Nat.ofDigitChars 10 digits 0 := by
  rw [decimalValue, Nat.ofDigitChars_eq_foldl]
  simp only [Nat.mul_comm]

theorem index?_eq_some_iff {segment : String} {index : Nat} :
    index? segment = some index
      ↔ segment.toList ≠ [] ∧ segment.toList.all isDigit = true
        ∧ decimalValue segment.toList = index ∧ index < indexBound := by
  simp only [index?, Option.ite_none_right_eq_some, Option.some.injEq]
  constructor
  · rintro ⟨⟨hne, hall, hlt⟩, rfl⟩
    exact ⟨hne, hall, rfl, hlt⟩
  · rintro ⟨hne, hall, rfl, hlt⟩
    exact ⟨⟨hne, hall, hlt⟩, rfl⟩

theorem isDigit_iff {c : Char} : isDigit c = true ↔ 48 ≤ c.toNat ∧ c.toNat ≤ 57 := by
  rw [isDigit, Bool.and_eq_true, decide_eq_true_eq, decide_eq_true_eq]
  rfl

theorem isDigit_of_mem_toDigits {n : Nat} {c : Char} (h : c ∈ Nat.toDigits 10 n) :
    isDigit c = true := by
  have hdigit : c.isDigit = true := Nat.isDigit_of_mem_toDigits (by decide) (by decide) h
  rw [Char.isDigit, Bool.and_eq_true, decide_eq_true_eq, decide_eq_true_eq] at hdigit
  exact isDigit_iff.mpr hdigit

theorem index?_toString {index : Nat} (h : index < indexBound) :
    index? (toString index) = some index := by
  have hdigits : (toString index).toList = Nat.toDigits 10 index := Nat.toList_repr
  rw [index?_eq_some_iff, hdigits, decimalValue_eq, Nat.ofDigitChars_ten_toDigits]
  exact ⟨Nat.toDigits_ne_nil, List.all_eq_true.mpr fun _ => isDigit_of_mem_toDigits, rfl, h⟩

theorem digitChar_sub {c : Char} (h : isDigit c = true) : Nat.digitChar (c.toNat - 48) = c := by
  obtain ⟨hlow, hhigh⟩ := isDigit_iff.mp h
  rw [← Char.toNat_inj, Nat.toNat_digitChar_of_lt_ten (by omega)]
  omega

/-- More digits behind the digits of a positive number. -/
theorem toDigits_ofDigitChars {digits : List Char} {start : Nat} (hstart : 0 < start)
    (h : digits.all isDigit = true) :
    Nat.toDigits 10 (Nat.ofDigitChars 10 digits start) = Nat.toDigits 10 start ++ digits := by
  induction digits generalizing start with
  | nil => simp
  | cons c rest ih =>
      rw [List.all_cons, Bool.and_eq_true] at h
      obtain ⟨hc, hrest⟩ := h
      have hlt : c.toNat - 48 < 10 := by
        have := isDigit_iff.mp hc
        omega
      have hone : Nat.toDigits 10 (c.toNat - 48) = [c] := by
        rw [Nat.toDigits_of_lt_base hlt, digitChar_sub hc]
      have hnext := Nat.toDigits_append_toDigits (by decide : 1 < 10) hstart hlt
      rw [hone] at hnext
      rw [Nat.ofDigitChars_cons, ih (by omega) hrest]
      show Nat.toDigits 10 (10 * start + (c.toNat - 48)) ++ rest = _
      rw [← hnext, List.append_assoc, List.singleton_append]

/-- Digits that do not start with zero are those of their number. -/
theorem toDigits_decimalValue {digits : List Char} (hne : digits ≠ [])
    (h : digits.all isDigit = true) (hzero : digits.head? ≠ some '0') :
    Nat.toDigits 10 (decimalValue digits) = digits := by
  cases digits with
  | nil => exact absurd rfl hne
  | cons c rest =>
      rw [List.all_cons, Bool.and_eq_true] at h
      obtain ⟨hc, hrest⟩ := h
      obtain ⟨hlow, hhigh⟩ := isDigit_iff.mp hc
      -- the first digit is none in front of others, so the number so far is positive
      have hpos : 0 < c.toNat - 48 := by
        have : c.toNat ≠ 48 := fun h => hzero (congrArg some (Char.toNat_inj.mp h))
        omega
      rw [decimalValue_eq, Nat.ofDigitChars_cons]
      show Nat.toDigits 10 (Nat.ofDigitChars 10 rest (10 * 0 + (c.toNat - 48))) = _
      rw [Nat.mul_zero, Nat.zero_add, toDigits_ofDigitChars hpos hrest,
        Nat.toDigits_of_lt_base (by omega), digitChar_sub hc, List.singleton_append]

/-- An index that is written without a needless zero is written by its digits. -/
theorem eq_toString_of_index? {segment : String} {index : Nat} (h : index? segment = some index)
    (hplain : ∀ c rest, segment.toList ≠ '0' :: c :: rest) : segment = toString index := by
  obtain ⟨hne, hall, rfl, -⟩ := index?_eq_some_iff.mp h
  rw [← String.toList_inj]
  refine Eq.trans ?_ Nat.toList_repr.symm
  by_cases hzero : segment.toList.head? = some '0'
  · -- a zero in front stands alone
    obtain ⟨rest, hrest⟩ := List.head?_eq_some_iff.mp hzero
    cases rest with
    | nil => rw [hrest]; rfl
    | cons c more => exact absurd hrest (hplain c more)
  · exact (toDigits_decimalValue hne hall hzero).symm

end ResourceQuery.Path
