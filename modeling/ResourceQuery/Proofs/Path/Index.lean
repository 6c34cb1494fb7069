import Mathlib.Data.Nat.Digits.Defs
import ResourceQuery.Proofs.Path.Text

/-!
# Indices and their numerals

A numeral is a segment of digits, and it writes a natural number however large. The zeros in front
of it do not count: two numerals write the same number exactly when the same is left of them without
these zeros (`Path.numeral_eq_iff`). A number that fits into 64 bits is an index. It can be read
digit by digit with words alone, giving up at the first product or sum that does not fit, because
more digits never make a number smaller (`Path.index?_eq_word?`). Main statement: the segments that
are indices, and when two of them are the same index (`Path.index?_exact`).
-/

set_option autoImplicit false

namespace ResourceQuery.Path

/-! ## Numerals -/

/-- Digits only, at least one: the segment writes a natural number, however large. -/
def IsNumeral (segment : String) : Prop :=
  segment ≠ "" ∧ ∀ c ∈ segment.toList, isDigit c = true

theorem isNumeral_iff {segment : String} :
    IsNumeral segment ↔ segment.toList ≠ [] ∧ segment.toList.all isDigit = true := by
  rw [IsNumeral, List.all_eq_true, Ne, Ne, String.toList_eq_nil_iff]

def numeral (segment : String) : Nat := decimalValue segment.toList

/-- An index is a numeral that is not too large. -/
theorem index?_eq_some_iff_numeral {segment : String} {index : Nat} :
    index? segment = some index
      ↔ IsNumeral segment ∧ numeral segment < indexBound ∧ numeral segment = index := by
  rw [index?_eq_some_iff, isNumeral_iff]
  constructor
  · rintro ⟨hne, hdigits, rfl, hlt⟩
    exact ⟨⟨hne, hdigits⟩, hlt, rfl⟩
  · rintro ⟨⟨hne, hdigits⟩, hlt, rfl⟩
    exact ⟨hne, hdigits, rfl, hlt⟩

/-- The values of the characters of a segment as digits, from the last one on. -/
def digitValues (segment : String) : List Nat :=
  segment.toList.reverse.map fun c => c.toNat - '0'.toNat

/-- A numeral is read in positional notation. -/
theorem numeral_eq_ofDigits (segment : String) :
    numeral segment = Nat.ofDigits 10 (digitValues segment) := by
  have hstep : ∀ (n : Nat) (c : Char),
      n * 10 + (c.toNat - '0'.toNat) = (c.toNat - '0'.toNat) + 10 * n := by
    intro n c
    omega
  rw [numeral, decimalValue, Nat.ofDigits_eq_foldr, digitValues, List.foldr_map,
    List.foldr_reverse]
  simp only [hstep, Nat.cast_id]

/-! ## Zeros in front -/

/-- The digits of a segment without the zeros in front of them. -/
def significant (segment : String) : List Char := segment.toList.dropWhile (· = '0')

/-- Zeros in front make no difference to the number. -/
theorem decimalValue_significant (segment : String) :
    decimalValue (significant segment) = numeral segment := by
  have hdrop : ∀ digits : List Char,
      decimalValue (digits.dropWhile (· = '0')) = decimalValue digits := by
    intro digits
    induction digits with
    | nil => rfl
    | cons c rest ih =>
        by_cases hc : c = '0'
        · subst hc
          rw [List.dropWhile_cons_of_pos (by decide), ih, decimalValue_eq, decimalValue_eq,
            Nat.ofDigitChars_cons]
          rfl
        · rw [List.dropWhile_cons_of_neg (by simpa using hc)]
  exact hdrop segment.toList

/-- What is left of a numeral without the zeros in front are the digits of its number. -/
theorem significant_eq {segment : String} (h : IsNumeral segment) :
    significant segment
      = if numeral segment = 0 then [] else Nat.toDigits 10 (numeral segment) := by
  by_cases hnil : significant segment = []
  · have hzero : numeral segment = 0 := by
      rw [← decimalValue_significant, hnil]
      rfl
    rw [if_pos hzero, hnil]
  · -- the digits left over start with one that is no zero, so they are those of their number
    have hdigits : (significant segment).all isDigit = true :=
      List.all_eq_true.mpr fun c hc => h.2 c ((List.dropWhile_sublist _).subset hc)
    have hhead : (significant segment).head? ≠ some '0' := by
      intro hhead
      have hnot := List.head?_dropWhile_not (fun c : Char => decide (c = '0')) segment.toList
      rw [significant] at hhead
      rw [hhead] at hnot
      cases hnot
    have hwritten := toDigits_decimalValue hnil hdigits hhead
    rw [decimalValue_significant] at hwritten
    have hpos : numeral segment ≠ 0 := by
      intro hzero
      rw [hzero] at hwritten
      exact hhead (hwritten ▸ rfl)
    rw [if_neg hpos, hwritten]

/-- Two numerals write the same number exactly when they differ in zeros in front only. -/
theorem numeral_eq_iff {segment segment' : String} (h : IsNumeral segment)
    (h' : IsNumeral segment') :
    numeral segment = numeral segment' ↔ significant segment = significant segment' := by
  constructor
  · intro heq
    rw [significant_eq h, significant_eq h', heq]
  · intro heq
    rw [← decimalValue_significant, heq, decimalValue_significant]

/-! ## Reading in words -/

/-- A natural number as a word, if it fits into one. -/
def ofNat? (n : Nat) : Option UInt64 := if n < indexBound then some (UInt64.ofNat n) else none

/-- The number with one more digit behind it, if the product with ten and the sum with the digit
both fit into a word. -/
def pushDigit? (word : UInt64) (digit : Char) : Option UInt64 :=
  (ofNat? (10 * word.toNat)).bind fun tens => ofNat? (tens.toNat + (digit.toNat - '0'.toNat))

/-- The number that a segment of digits writes, read digit by digit. Reading stops when a word is
too small. -/
def word? (segment : String) : Option UInt64 :=
  let digits := segment.toList
  if digits ≠ [] ∧ digits.all isDigit then digits.foldlM pushDigit? 0 else none

/-- A number that fits is the number of a word. -/
theorem exists_word {n : Nat} (h : n < indexBound) : ∃ word : UInt64, word.toNat = n :=
  ⟨UInt64.ofNat n, UInt64.toNat_ofNat_of_lt' h⟩

theorem ofNat?_eq_some_iff {n : Nat} {word : UInt64} : ofNat? n = some word ↔ word.toNat = n := by
  rw [ofNat?, Option.ite_none_right_eq_some, Option.some.injEq]
  constructor
  · rintro ⟨hlt, rfl⟩
    exact UInt64.toNat_ofNat_of_lt' hlt
  · rintro rfl
    exact ⟨word.toNat_lt, UInt64.ofNat_toNat⟩

theorem pushDigit?_eq_some_iff {word next : UInt64} {digit : Char} :
    pushDigit? word digit = some next
      ↔ next.toNat = 10 * word.toNat + (digit.toNat - '0'.toNat) := by
  simp only [pushDigit?, Option.bind_eq_some_iff, ofNat?_eq_some_iff]
  constructor
  · rintro ⟨tens, htens, hnext⟩
    rw [hnext, htens]
  · intro hnext
    -- the product is not larger than the sum, which is a word
    have hle : 10 * word.toNat ≤ next.toNat := by omega
    obtain ⟨tens, htens⟩ := exists_word (Nat.lt_of_le_of_lt hle next.toNat_lt)
    exact ⟨tens, htens, by rw [hnext, htens]⟩

/-- Digits can be read to their end exactly when their number is a word: no number on the way is
larger. -/
theorem foldlM_pushDigit?_eq_some_iff {digits : List Char} {start word : UInt64} :
    digits.foldlM pushDigit? start = some word
      ↔ word.toNat = Nat.ofDigitChars 10 digits start.toNat := by
  induction digits generalizing start with
  | nil =>
      rw [List.foldlM_nil, Nat.ofDigitChars_nil, UInt64.toNat_inj]
      exact Option.some_inj.trans eq_comm
  | cons c rest ih =>
      rw [List.foldlM_cons, Nat.ofDigitChars_cons]
      simp only [Option.bind_eq_bind, Option.bind_eq_some_iff, pushDigit?_eq_some_iff, ih]
      constructor
      · rintro ⟨next, hnext, hword⟩
        rw [hword, hnext]
      · -- what has been read so far is not above the whole, so it fits into a word
        intro hword
        have hle := Text.le_ofDigitChars rest (10 * start.toNat + (c.toNat - '0'.toNat))
        rw [← hword] at hle
        obtain ⟨next, hnext⟩ := exists_word (Nat.lt_of_le_of_lt hle word.toNat_lt)
        exact ⟨next, hnext, by rw [hword, hnext]⟩

/-- Reading in words finds the same indices. -/
theorem index?_eq_word? (segment : String) : index? segment = (word? segment).map UInt64.toNat := by
  ext index
  rw [Option.map_eq_some_iff, index?_eq_some_iff]
  simp only [word?, Option.ite_none_right_eq_some, foldlM_pushDigit?_eq_some_iff, decimalValue_eq]
  constructor
  · rintro ⟨hne, hall, rfl, hlt⟩
    obtain ⟨word, hword⟩ := exists_word hlt
    exact ⟨word, ⟨⟨hne, hall⟩, hword⟩, hword⟩
  · rintro ⟨word, ⟨⟨hne, hall⟩, hword⟩, rfl⟩
    exact ⟨hne, hall, hword.symm, word.toNat_lt⟩

/-! ## All segments -/

/-- **The segments that are indices.** A segment is an index exactly when it has digits only, at
least one, and the number that they write in positional notation fits into 64 bits; reading it in
words gives the same. Every number that fits is the index of its decimal digits. Two numerals are
the same index exactly when they differ in zeros in front only, as long as they are an index at
all. -/
theorem index?_exact :
    (∀ segment index, index? segment = some index
        ↔ IsNumeral segment ∧ Nat.ofDigits 10 (digitValues segment) = index ∧ index < 2 ^ 64)
      ∧ (∀ segment, index? segment = none
        ↔ ¬ (IsNumeral segment ∧ Nat.ofDigits 10 (digitValues segment) < 2 ^ 64))
      ∧ (∀ segment, index? segment = (word? segment).map UInt64.toNat)
      ∧ (∀ index, index < 2 ^ 64 → index? (toString index) = some index)
      ∧ ∀ segment segment', IsNumeral segment → IsNumeral segment' →
        ((∃ index, index? segment = some index ∧ index? segment' = some index)
          ↔ significant segment = significant segment'
            ∧ Nat.ofDigits 10 (digitValues segment) < 2 ^ 64) := by
  have hsome : ∀ segment index, index? segment = some index
      ↔ IsNumeral segment ∧ Nat.ofDigits 10 (digitValues segment) = index ∧ index < 2 ^ 64 := by
    intro segment index
    rw [index?_eq_some_iff_numeral, ← numeral_eq_ofDigits]
    constructor
    · rintro ⟨hnumeral, hlt, rfl⟩
      exact ⟨hnumeral, rfl, hlt⟩
    · rintro ⟨hnumeral, rfl, hlt⟩
      exact ⟨hnumeral, hlt, rfl⟩
  refine ⟨hsome, ?_, index?_eq_word?, fun index hlt => index?_toString hlt, ?_⟩
  · -- no index
    intro segment
    rw [Option.eq_none_iff_forall_ne_some]
    constructor
    · rintro hnone ⟨hnumeral, hlt⟩
      exact hnone _ ((hsome _ _).mpr ⟨hnumeral, rfl, hlt⟩)
    · intro hnot index hindex
      obtain ⟨hnumeral, rfl, hlt⟩ := (hsome _ _).mp hindex
      exact hnot ⟨hnumeral, hlt⟩
  · -- one index for two segments
    intro segment segment' hnumeral hnumeral'
    rw [← numeral_eq_iff hnumeral hnumeral', numeral_eq_ofDigits, numeral_eq_ofDigits]
    constructor
    · rintro ⟨index, hindex, hindex'⟩
      obtain ⟨-, rfl, hlt⟩ := (hsome _ _).mp hindex
      obtain ⟨-, heq, -⟩ := (hsome _ _).mp hindex'
      exact ⟨heq.symm, hlt⟩
    · rintro ⟨heq, hlt⟩
      exact ⟨_, (hsome _ _).mpr ⟨hnumeral, rfl, hlt⟩, (hsome _ _).mpr ⟨hnumeral', heq.symm, hlt⟩⟩

/-- The largest index with zeros in front of it, the first number beyond it, and a digit of another
script. -/
theorem index?_exact_extremes :
    index? "00018446744073709551615" = some 18446744073709551615
      ∧ index? "18446744073709551616" = none
      ∧ index? "٣" = none
      ∧ (∃ index, index? "007" = some index ∧ index? "07" = some index)
      ∧ ¬ ∃ index, index? "18446744073709551616" = some index
        ∧ index? "018446744073709551616" = some index := by
  have hnumeral : ∀ segment ∈ ["00018446744073709551615", "007", "07", "18446744073709551616",
      "018446744073709551616"], IsNumeral segment := by
    simp only [isNumeral_iff]
    decide +kernel
  have hother : ¬ IsNumeral "٣" := by
    rw [isNumeral_iff]
    decide +kernel
  obtain ⟨hsome, hnone, -, -, hsame⟩ := index?_exact
  refine ⟨?_, ?_, ?_, ?_, ?_⟩
  · -- the largest index, the first number beyond it, and a digit of another script
    exact (hsome _ _).mpr ⟨hnumeral _ (by decide), by decide +kernel, by decide⟩
  · exact (hnone _).mpr fun h => absurd h.2 (by decide +kernel)
  · exact (hnone _).mpr fun h => hother h.1
  · -- zeros make no difference, but do not help a number that is too large
    exact (hsame _ _ (hnumeral _ (by decide)) (hnumeral _ (by decide))).mpr
      ⟨by decide +kernel, by decide +kernel⟩
  · intro hshared
    have hlt := ((hsame _ _ (hnumeral _ (by decide)) (hnumeral _ (by decide))).mp hshared).2
    exact absurd hlt (by decide +kernel)

end ResourceQuery.Path
