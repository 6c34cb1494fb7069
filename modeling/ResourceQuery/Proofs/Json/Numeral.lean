import ResourceQuery.Json.Printer
import ResourceQuery.Json.Reader
import ResourceQuery.Proofs.Reading.Written
import ResourceQuery.Proofs.Text.Pieces

/-!
# Numbers that were written

A number that was written is read as a numeral up to its end, because a numeral consists of numeric
characters only (`isNumeric_of_ofRun?`). Whether the value of the numeral is the number again is
another matter: it is for whole numbers (`Number.readsBack_int`), while the last bit of a float may
change. `Number.ReadsBack` says that it does not.
-/

set_option autoImplicit false

namespace ResourceQuery

/-- The text of a number is read as that number. -/
def Number.ReadsBack (number : Number) : Prop :=
  (Json.Numeral.ofRun? number.text.toList).bind Json.Numeral.value? = some number

namespace Json

open Reading

/-! ## Numerals -/

theorem isDigit_of_mem_toDigits {n : Nat} {c : Char} (h : c ∈ Nat.toDigits 10 n) :
    isDigit c = true := by
  have hdigit : c.isDigit = true := Nat.isDigit_of_mem_toDigits (by decide) (by decide) h
  rw [Char.isDigit_iff_toNat] at hdigit
  rw [isDigit, Bool.and_eq_true, decide_eq_true_eq, decide_eq_true_eq]
  exact hdigit

/-- Digits whose number is below the bound are all taken. -/
theorem takeWhole_eq {digits : List Char} {significand : Nat}
    (h : Nat.ofDigitChars 10 digits significand < Decimal.significandBound) :
    Decimal.takeWhole significand digits = (Nat.ofDigitChars 10 digits significand, 0) := by
  induction digits generalizing significand with
  | nil => rfl
  | cons c rest ih =>
      have hnext : Nat.ofDigitChars 10 (c :: rest) significand
          = Nat.ofDigitChars 10 rest (significand * 10 + (c.toNat - '0'.toNat)) := by
        rw [Nat.ofDigitChars_cons, Nat.mul_comm]
      rw [hnext] at h ⊢
      rw [Decimal.takeWhole, if_pos (Nat.lt_of_le_of_lt (Text.le_ofDigitChars rest _) h), ih h]

/-- The digits of a natural number, with or without a sign in front, are a numeral. -/
theorem ofRun?_toDigits (n : Nat) (negative : Bool) :
    Numeral.ofRun? ((if negative then ['-'] else []) ++ Nat.toDigits 10 n)
      = some ⟨negative, Nat.toDigits 10 n, none, none⟩ := by
  have hdigits : ∀ c ∈ Nat.toDigits 10 n, isDigit c = true := fun _ => isDigit_of_mem_toDigits
  have htake : (Nat.toDigits 10 n).takeWhile isDigit = Nat.toDigits 10 n :=
    List.takeWhile_eq_self_iff.mpr hdigits
  have hdrop : (Nat.toDigits 10 n).dropWhile isDigit = [] :=
    List.dropWhile_eq_nil_iff.mpr hdigits
  -- neither a sign nor a needless zero comes first
  have hsign : (Nat.toDigits 10 n).head? ≠ some '-' := by
    intro hhead
    exact absurd (hdigits '-' (List.mem_of_head? hhead)) (by decide)
  have hzero : (Nat.toDigits 10 n).head? = some '0' → (Nat.toDigits 10 n).length ≤ 1 := by
    intro hhead
    rw [Text.eq_zero_of_head?_toDigits hhead]
    decide
  cases negative with
  | true => simpa [Numeral.ofRun?, htake, hdrop] using hzero
  | false => simpa [Numeral.ofRun?, htake, hdrop, hsign] using hzero

theorem takeWhole_toDigits {n : Nat} (h : n < Decimal.significandBound) :
    Decimal.takeWhole 0 (Nat.toDigits 10 n) = (n, 0) := by
  have hdigits : Nat.ofDigitChars 10 (Nat.toDigits 10 n) 0 = n := Nat.ofDigitChars_ten_toDigits
  rw [takeWhole_eq (hdigits.symm ▸ h), hdigits]

end Json

/-- A whole number in the range of the format is read as itself. -/
theorem Number.readsBack_int {value : Int} (h : (Number.int value).Readable) :
    (Number.int value).ReadsBack := by
  obtain ⟨hlow, hhigh⟩ := h
  have hbound : Decimal.significandBound = 18446744073709551616 := by decide
  rw [ReadsBack]
  cases value with
  | ofNat n =>
      have htext : (Number.int (Int.ofNat n)).text.toList = Nat.toDigits 10 n := Nat.toList_repr
      have hrun : Json.Numeral.ofRun? (Nat.toDigits 10 n)
          = some ⟨false, Nat.toDigits 10 n, none, none⟩ := Json.ofRun?_toDigits n false
      have hn : n < Decimal.significandBound := by
        rw [Int.ofNat_eq_natCast] at hhigh
        omega
      rw [htext, hrun]
      simp [Json.Numeral.value?, Json.takeWhole_toDigits hn]
  | negSucc n =>
      have htext : (Number.int (Int.negSucc n)).text.toList = '-' :: Nat.toDigits 10 (n + 1) := by
        show ("-" ++ Nat.repr (n + 1)).toList = _
        rw [String.toList_append, Nat.toList_repr]
        rfl
      have hrun : Json.Numeral.ofRun? ('-' :: Nat.toDigits 10 (n + 1))
          = some ⟨true, Nat.toDigits 10 (n + 1), none, none⟩ := Json.ofRun?_toDigits (n + 1) true
      -- a negative number goes as far as the magnitude of the least one
      rw [Int.negSucc_eq] at hlow
      have hn : n + 1 < Decimal.significandBound := by omega
      have hsmall : ¬ (n + 1 = 0 ∨ n + 1 > 9223372036854775808) := by omega
      rw [htext, hrun]
      simp only [Option.bind_some, Json.Numeral.value?, Json.takeWhole_toDigits hn]
      rw [if_pos (by simp), if_neg (by simp), if_neg hsmall]
      rfl

end ResourceQuery
