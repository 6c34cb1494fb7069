import ResourceQuery.Proofs.Relationship.Grammar

/-!
# Where reading a compact form stops

A text that is not in compact form can still have fronts that are. Reading takes the longest of
them: cut anywhere behind what was read, the text reads as the same relationship up to the same
place (`Compact.front?_append_prefix`), so no longer front is in compact form. Main statement: the
position of an error is the size of the longest front in compact form, and zero if there is no such
front (`Relationship.position_of_ofCompact`).
-/

set_option autoImplicit false

namespace ResourceQuery

namespace Compact

/-- The text goes on from the front. -/
def IsFront (front text : String) : Prop := ∃ rest, front ++ rest = text

/-- A text that can be read to its end. -/
def IsRead (text : String) : Prop := ∃ relationship, Relationship.ofCompact text = .ok relationship

/-- The longest front of a text that can be read to its end: every other one is a front of it. -/
structure IsLongestRead (front text : String) : Prop where
  isFront : IsFront front text
  isRead : IsRead front
  longest : ∀ other, IsFront other text → IsRead other → IsFront other front

/-! ## Texts that are cut -/

/-- Cut behind what was read, a text is read in the same way. -/
theorem front?_append_prefix {relationship : Relationship} {form rest cut : List Char}
    (h : front? (form ++ rest) = some (relationship, rest)) (hcut : cut <+: rest) :
    front? (form ++ cut) = some (relationship, cut) := by
  obtain ⟨hwell, hrest, text, htext, hform⟩ := front?_eq_some_iff.mp h
  rw [List.append_cancel_right_eq] at hform
  subst hform
  exact front?_eq_some_iff.mpr ⟨hwell, hrest.of_prefix hcut, text, htext, rfl⟩

/-- What is read is a front of the text. -/
theorem exists_form_of_front? {relationship : Relationship} {text rest : List Char}
    (h : front? text = some (relationship, rest)) : ∃ form, form ++ rest = text := by
  obtain ⟨-, -, form, -, htext⟩ := front?_eq_some_iff.mp h
  exact ⟨form.toList, htext⟩

/-- A text that is read only in part has no longer front that is read to its end. -/
theorem isLongestRead_of_front? {relationship : Relationship} {front rest : String}
    (h : front? (front ++ rest).toList = some (relationship, rest.toList)) :
    IsLongestRead front (front ++ rest) := by
  rw [String.toList_append] at h
  refine ⟨⟨rest, rfl⟩, ⟨relationship, ?_⟩, ?_⟩
  · have hfront := front?_append_prefix h List.nil_prefix
    rw [List.append_nil] at hfront
    exact Relationship.ofCompact_eq_ok_iff_front?.mpr hfront
  · rintro other ⟨back, hback⟩ ⟨relationship', hother⟩
    rw [Relationship.ofCompact_eq_ok_iff_front?] at hother
    have hlists : other.toList ++ back.toList = front.toList ++ rest.toList := by
      rw [← String.toList_append, ← String.toList_append, hback]
    rcases List.append_eq_append_iff.mp hlists with ⟨mid, hmid, -⟩ | ⟨mid, hmid, hrest⟩
    · exact ⟨String.ofList mid, String.toList_inj.mp (by simp [hmid])⟩
    · -- a longer front leaves over what it has more
      have hcut := front?_append_prefix h (hrest ▸ List.prefix_append mid back.toList)
      rw [← hmid, hother] at hcut
      obtain ⟨-, rfl⟩ := Prod.mk.inj (Option.some.inj hcut)
      rw [List.append_nil, String.toList_inj] at hmid
      exact ⟨"", by rw [hmid, String.append_empty]⟩

/-! ## Texts without a name in front -/

/-- Nothing is read when there is no name in front: the text is empty or starts with a mark. -/
theorem front?_eq_none_iff {text : List Char} :
    front? text = none ↔ text = [] ∨ text.head? = some ':' ∨ text.head? = some ',' := by
  unfold front?
  by_cases hname : text.takeWhile isNameChar = []
  · simp only [hname, if_true, true_iff]
    cases text with
    | nil => exact .inl rfl
    | cons c rest =>
        have hmark : ¬ isNameChar c = true := by
          intro hc
          rw [List.takeWhile_cons_of_pos hc] at hname
          cases hname
        rw [isNameChar_iff] at hmark
        by_cases hcolon : c = ':'
        · exact .inr (.inl (congrArg some hcolon))
        · exact .inr (.inr (congrArg some (by_contra fun hcomma => hmark ⟨hcolon, hcomma⟩)))
  · simp only [hname, if_false]
    constructor
    · -- with a name in front something is read
      intro h
      split at h <;> cases h
    · rintro (rfl | hcolon | hcomma)
      · exact absurd rfl hname
      · obtain ⟨rest, rfl⟩ := List.head?_eq_some_iff.mp hcolon
        exact absurd rfl hname
      · obtain ⟨rest, rfl⟩ := List.head?_eq_some_iff.mp hcomma
        exact absurd rfl hname

/-- A text without a name in front has no front that is read to its end. -/
theorem not_isRead_of_front?_eq_none {front text : String} (h : front? text.toList = none)
    (hfront : IsFront front text) : ¬ IsRead front := by
  rintro ⟨relationship, hread⟩
  rw [Relationship.ofCompact_eq_ok_iff_front?] at hread
  obtain ⟨rest, rfl⟩ := hfront
  -- a front of the text starts like the text, if there is anything in it
  have hnone : front? front.toList = none := by
    rw [front?_eq_none_iff] at h ⊢
    cases hlist : front.toList with
    | nil => exact .inl rfl
    | cons c more =>
        rw [String.toList_append, hlist] at h
        exact .inr (h.resolve_left (List.cons_ne_nil _ _))
  rw [hnone] at hread
  cases hread

end Compact

namespace Relationship

/-- The ways in which reading fails. -/
theorem ofCompact_eq_error {text : String} {error : Compact.Error}
    (h : ofCompact text = .error error) :
    (Compact.front? text.toList = none ∧ error = .noName text)
      ∨ ∃ relationship front rest, front ++ rest = text ∧ rest ≠ ""
        ∧ Compact.front? text.toList = some (relationship, rest.toList)
        ∧ error = .trailing front.utf8ByteSize rest := by
  unfold ofCompact at h
  split at h
  · -- no name
    rename_i hfront
    exact .inl ⟨hfront, (Except.error.inj h).symm⟩
  · cases h
  · -- a rest
    rename_i relationship rest hrest hfront
    obtain ⟨form, htext⟩ := Compact.exists_form_of_front? hfront
    obtain rfl : String.ofList form ++ String.ofList rest = text :=
      String.toList_inj.mp (by simp [htext])
    refine .inr ⟨relationship, String.ofList form, String.ofList rest, rfl, ?_, ?_, ?_⟩
    · intro hnil
      exact hrest (by simpa using hnil)
    · rw [hfront, String.toList_ofList]
    · rw [← Except.error.inj h, String.utf8ByteSize_append, Nat.add_sub_cancel]

/-- **The position of an error.** A text that is not in compact form either has a longest front that
is: then the position is the size of that front in bytes, the error quotes what follows there, and
that starts with a comma. Or no front of it is in compact form: then the position is zero, and the
text is empty or starts with a colon or a comma. -/
theorem position_of_ofCompact {text : String} {error : Compact.Error}
    (h : ofCompact text = .error error) :
    (∃ front rest, Compact.IsLongestRead front text ∧ front ++ rest = text
        ∧ error.position = front.utf8ByteSize
        ∧ error.cause = "Unexpected trailing content: '" ++ rest ++ "'"
        ∧ rest.toList.head? = some ',')
      ∨ (∀ front, Compact.IsFront front text → ¬ Compact.IsRead front) ∧ error.position = 0
        ∧ (text = "" ∨ text.toList.head? = some ':' ∨ text.toList.head? = some ',') := by
  rcases ofCompact_eq_error h with
    ⟨hfront, rfl⟩ | ⟨relationship, front, rest, rfl, hne, hfront, rfl⟩
  · -- no front is read
    refine .inr ⟨fun _ => Compact.not_isRead_of_front?_eq_none hfront, rfl, ?_⟩
    have hhead := Compact.front?_eq_none_iff.mp hfront
    rwa [String.toList_eq_nil_iff] at hhead
  · -- the rest is where the longest front ends, and starts with a comma
    refine .inl ⟨front, rest, Compact.isLongestRead_of_front? hfront, rfl, rfl, rfl, ?_⟩
    obtain ⟨-, hleft, -⟩ := Compact.front?_eq_some_iff.mp hfront
    cases hrest : rest.toList with
    | nil => exact absurd (String.toList_eq_nil_iff.mp hrest) hne
    | cons c more => rw [List.head?_cons, hleft.comma c (by rw [hrest]; rfl)]

/-- Two commas after a name with a character of two bytes: the text is read up to them. -/
theorem position_of_ofCompact_commas :
    ofCompact "é:id,,name" = .error (.trailing 5 ",,name")
      ∧ Compact.IsLongestRead "é:id" "é:id,,name" ∧ "é:id".utf8ByteSize = 5 := by
  have hsize : "é:id,,name".utf8ByteSize - ",,name".utf8ByteSize = 5 := by decide
  have hread : ofCompact "é:id,,name" = .error (.trailing 5 ",,name") := by
    simp [ofCompact, Compact.front?, Compact.isNameChar, Compact.columnsAndRest, Compact.pieces,
      Compact.joined, hsize]
  refine ⟨hread, ?_, by decide⟩
  rcases position_of_ofCompact hread with
    ⟨front, rest, hlongest, htext, -, hcause, -⟩ | ⟨-, hzero, -⟩
  · have hquoted : "Unexpected trailing content: '" ++ ",,name"
        = "Unexpected trailing content: '" ++ rest := (String.append_left_inj "'").mp hcause
    obtain rfl : ",,name" = rest := (String.append_right_inj _).mp hquoted
    have hsplit : "é:id" ++ ",,name" = "é:id,,name" := by decide
    obtain rfl : front = "é:id" := (String.append_left_inj _).mp (htext.trans hsplit.symm)
    exact hlongest
  · exact absurd hzero (by decide)

end Relationship

end ResourceQuery
