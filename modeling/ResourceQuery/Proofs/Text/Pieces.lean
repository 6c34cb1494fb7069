/-!
# Pieces of a text and digits of a number

Facts about characters: no piece between marks has the mark in it (`notMem_of_mem_splitOn`), only
zero is written with a zero in front (`eq_zero_of_head?_toDigits`), more digits do not make a number
smaller (`le_ofDigitChars`), and different numbers have different digits (`toString_injective`).
-/

set_option autoImplicit false

namespace ResourceQuery.Text

/-- No piece between marks has the mark in it. -/
theorem notMem_of_mem_splitOn {mark : Char} {text piece : List Char}
    (h : piece ∈ text.splitOn mark) : mark ∉ piece := by
  induction text generalizing piece with
  | nil =>
      obtain rfl : piece = [] := by simpa using h
      exact List.not_mem_nil
  | cons c rest ih =>
      rw [List.splitOn_cons_eq_if_modifyHead] at h
      by_cases hc : c = mark
      · simp only [hc, beq_self_eq_true, if_true, List.mem_cons] at h
        rcases h with rfl | h
        · exact List.not_mem_nil
        · exact ih h
      · simp only [beq_iff_eq, hc, if_false] at h
        cases hsplit : rest.splitOn mark with
        | nil => exact absurd hsplit (List.splitOn_ne_nil _ _)
        | cons first others =>
            rw [hsplit, List.modifyHead_cons, List.mem_cons] at h
            rcases h with rfl | h
            · have hfirst := ih (hsplit ▸ List.mem_cons_self)
              simp [hfirst, Ne.symm hc]
            · exact ih (hsplit ▸ List.mem_cons_of_mem _ h)

/-- What stands between pieces is a mark. -/
theorem of_mem_intercalate {mark c : Char} {pieces : List (List Char)}
    (h : c ∈ [mark].intercalate pieces) : c = mark ∨ ∃ piece ∈ pieces, c ∈ piece := by
  induction pieces with
  | nil => exact absurd h List.not_mem_nil
  | cons piece rest ih =>
      cases rest with
      | nil => exact .inr ⟨piece, List.mem_cons_self, by simpa using h⟩
      | cons next more =>
          rw [List.intercalate_cons_cons, List.mem_append, List.mem_append] at h
          rcases h with (hpiece | hmark) | hrest
          · exact .inr ⟨piece, List.mem_cons_self, hpiece⟩
          · exact .inl (List.mem_singleton.mp hmark)
          · rcases ih hrest with hmark | ⟨piece', hmem, hc⟩
            · exact .inl hmark
            · exact .inr ⟨piece', List.mem_cons_of_mem _ hmem, hc⟩

/-- Only zero is written with a zero in front. -/
theorem eq_zero_of_head?_toDigits {n : Nat} (h : (Nat.toDigits 10 n).head? = some '0') :
    n = 0 := by
  induction n using Nat.strongRecOn with
  | ind n ih =>
      by_cases hsmall : n < 10
      · have hall : ∀ m : Fin 10, (Nat.toDigits 10 m).head? = some '0' → m.val = 0 := by decide
        exact hall ⟨n, hsmall⟩ h
      -- the first digit stays when the last one is taken off
      · have hlead : (Nat.toDigits 10 (n / 10)).head? = some '0' := by
          rw [Nat.toDigits_of_base_le (by decide) (by omega)] at h
          cases hdigits : Nat.toDigits 10 (n / 10) with
          | nil => exact absurd hdigits Nat.toDigits_ne_nil
          | cons c rest =>
              rw [hdigits] at h
              exact h
        have hzero := ih (n / 10) (by omega) hlead
        omega

theorem le_ofDigitChars (digits : List Char) (start : Nat) :
    start ≤ Nat.ofDigitChars 10 digits start := by
  rw [Nat.ofDigitChars_eq_ofDigitChars_zero]
  have hpos : 0 < 10 ^ digits.length := Nat.pow_pos (by decide)
  have hle : 1 * start ≤ 10 ^ digits.length * start := Nat.mul_le_mul_right start hpos
  omega

theorem toString_injective {m n : Nat} (h : toString m = toString n) : m = n := by
  have hdigits : Nat.toDigits 10 m = Nat.toDigits 10 n :=
    (Nat.toList_repr.symm.trans (congrArg String.toList h)).trans Nat.toList_repr
  calc m = Nat.ofDigitChars 10 (Nat.toDigits 10 m) 0 := Nat.ofDigitChars_ten_toDigits.symm
    _ = Nat.ofDigitChars 10 (Nat.toDigits 10 n) 0 := by rw [hdigits]
    _ = n := Nat.ofDigitChars_ten_toDigits

/-- A mark that is no digit does not occur in a number. -/
theorem notMem_toString {mark : Char} (h : mark.isDigit = false) (n : Nat) :
    mark ∉ (toString n).toList := by
  have hdigits : (toString n).toList = Nat.toDigits 10 n := Nat.toList_repr
  rw [hdigits]
  intro hmem
  have hdigit : mark.isDigit = true := Nat.isDigit_of_mem_toDigits (by decide) (by decide) hmem
  rw [h] at hdigit
  cases hdigit

end ResourceQuery.Text
