import Mathlib.Data.List.TakeWhile
import ResourceQuery.Proofs.Reading.Written
import ResourceQuery.Proofs.Text.Pieces
import ResourceQuery.Relationship.Compact

/-!
# The grammar of compact forms

A compact form is a name, or a name, a colon and columns between commas. The marks decide what can
stand in the parts: neither colon nor comma in a name, no comma in a column, and no part is empty.
`Relationship.WellFormed` says this of a relationship, and `Leftover` says where reading stops: at
the end of the text, or at a comma that no column follows. Main statements: what stands at the front
of a text is the compact form of a well-formed relationship with such a rest behind it
(`front?_eq_some_iff`), so a text reads as a relationship exactly when it is the compact form of
that relationship and the relationship is well formed (`Relationship.ofCompact_eq_ok_iff`).
-/

set_option autoImplicit false

namespace ResourceQuery

namespace Compact

/-- A name that a compact form can carry. -/
def IsName (name : String) : Prop := name ≠ "" ∧ ':' ∉ name.toList ∧ ',' ∉ name.toList

/-- A column that a compact form can carry. -/
def IsColumn (column : String) : Prop := column ≠ "" ∧ ',' ∉ column.toList

end Compact

/-- A relationship whose compact form, if it has one, can be read again: its name and its columns
can be told from the marks between them. -/
def Relationship.WellFormed : Relationship → Prop
  | .bare name => Compact.IsName name
  | .scoped name columns => Compact.IsName name ∧ ∀ column ∈ columns, Compact.IsColumn column
  | .nested _ _ => True

/-- A relationship that lists at least one column. -/
def Relationship.ListsColumns : Relationship → Prop
  | .scoped _ columns => columns ≠ []
  | _ => False

namespace Compact

/-- What reading may leave over: nothing, or a comma and what follows it. If columns are listed in
front of it, the comma ends the text or a second one follows, since anything else would be a column.
-/
structure Leftover (lists : Prop) (rest : List Char) : Prop where
  comma : ∀ c ∈ rest.head?, c = ','
  noColumn : lists → ∀ c ∈ rest.tail.head?, c = ','

/-- Any front of what reading leaves over could be left over too. -/
theorem Leftover.of_prefix {lists : Prop} {rest front : List Char} (h : Leftover lists rest)
    (hfront : front <+: rest) : Leftover lists front := by
  obtain ⟨back, rfl⟩ := hfront
  match front, h with
  | [], _ => exact ⟨by simp, by simp⟩
  | [c], h => exact ⟨h.comma, by simp⟩
  | _ :: _ :: _, h => exact ⟨h.comma, h.noColumn⟩

/-! ## Pieces between commas -/

theorem pieces_eq_splitOn (text : List Char) : pieces text = text.splitOn ',' := by
  induction text with
  | nil => rfl
  | cons c rest ih =>
      rw [List.splitOn_cons_eq_if_modifyHead, ← ih]
      by_cases hc : c = ','
      · simp [pieces, hc]
      · simp only [pieces, hc, if_false, beq_iff_eq]
        cases hp : pieces rest with
        | nil => exact absurd (ih ▸ hp) (List.splitOn_ne_nil _ _)
        | cons first others => rfl

theorem joined_pieces (text : List Char) : joined (pieces text) = text := by
  rw [joined, pieces_eq_splitOn, List.intercalate_splitOn]

theorem pieces_joined {columns : List (List Char)} (hne : columns ≠ [])
    (h : ∀ column ∈ columns, ',' ∉ column) : pieces (joined columns) = columns := by
  rw [joined, pieces_eq_splitOn, List.splitOn_intercalate _ h hne]

theorem comma_notMem_of_mem_pieces {text piece : List Char} (h : piece ∈ pieces text) :
    ',' ∉ piece :=
  Text.notMem_of_mem_splitOn (pieces_eq_splitOn text ▸ h)

theorem pieces_append_comma (front back : List Char) :
    pieces (front ++ ',' :: back) = pieces front ++ pieces back := by
  rw [pieces_eq_splitOn, pieces_eq_splitOn, pieces_eq_splitOn, List.splitOn_append_cons_self]

theorem joined_append {front back : List (List Char)} (hfront : front ≠ []) (hback : back ≠ []) :
    joined (front ++ back) = joined front ++ ',' :: joined back := by
  induction front with
  | nil => exact absurd rfl hfront
  | cons first rest ih =>
      by_cases hrest : rest = []
      · subst hrest
        rw [List.singleton_append, joined, List.intercalate_cons_of_ne_nil hback, joined,
          List.intercalate_singleton, joined]
        simp
      · have hall : rest ++ back ≠ [] := by simp [hback]
        rw [List.cons_append, joined, List.intercalate_cons_of_ne_nil hall, joined,
          List.intercalate_cons_of_ne_nil hrest]
        have htail := ih hrest
        rw [joined, joined] at htail
        rw [htail]
        simp

/-! ## The text after the colon -/

/-- A text that starts with a comma, or has nothing in it, starts with an empty piece. -/
theorem head_pieces_eq_nil {text : List Char} (h : ∀ c ∈ text.head?, c = ',') :
    ∃ others, pieces text = [] :: others := by
  cases text with
  | nil => exact ⟨[], rfl⟩
  | cons c rest =>
      obtain rfl : c = ',' := h c rfl
      exact ⟨pieces rest, by simp [pieces]⟩

/-- Columns and what is left over are told apart in the text that they make up. -/
theorem columnsAndRest_joined {columns : List (List Char)} {rest : List Char}
    (hcolumns : ∀ column ∈ columns, column ≠ [] ∧ ',' ∉ column)
    (hrest : Leftover (columns ≠ []) rest) :
    columnsAndRest (joined columns ++ rest) = (columns, rest) := by
  have hfull : ∀ column ∈ columns, decide (column ≠ []) = true :=
    fun column hc => decide_eq_true (hcolumns column hc).1
  have hempty : ∀ others : List (List Char),
      (columns ++ [] :: others).takeWhile (· ≠ []) = columns
        ∧ (columns ++ [] :: others).dropWhile (· ≠ []) = [] :: others := by
    intro others
    rw [List.takeWhile_append_of_pos hfull, List.dropWhile_append_of_pos hfull]
    simp
  by_cases hlist : columns = []
  · -- without columns the whole text is left over, if there is any
    subst hlist
    obtain ⟨others, hpieces⟩ := head_pieces_eq_nil hrest.comma
    have hjoined := joined_pieces rest
    rw [hpieces] at hjoined
    obtain ⟨htake, hdrop⟩ := hempty others
    show columnsAndRest rest = ([], rest)
    rw [List.nil_append] at htake hdrop
    simp only [columnsAndRest, hpieces, htake, hdrop, if_true, hjoined]
  · have hpieces : pieces (joined columns) = columns :=
      pieces_joined hlist fun column hc => (hcolumns column hc).2
    cases rest with
    | nil =>
        have htake := List.takeWhile_eq_self_iff.mpr hfull
        have hdrop := List.dropWhile_eq_nil_iff.mpr hfull
        simp only [List.append_nil, columnsAndRest, hpieces, htake, hdrop]
    | cons c more =>
        obtain rfl : c = ',' := hrest.comma c rfl
        obtain ⟨others, hmore⟩ := head_pieces_eq_nil (hrest.noColumn hlist)
        have hjoined := joined_pieces more
        rw [List.tail_cons] at hmore
        rw [hmore] at hjoined
        obtain ⟨htake, hdrop⟩ := hempty others
        simp only [columnsAndRest, pieces_append_comma, hpieces, hmore, htake, hdrop, hlist,
          if_false, hjoined]

/-- The text after the colon is made up of its columns and of what is left over. -/
theorem columnsAndRest_spec (text : List Char) :
    joined (columnsAndRest text).1 ++ (columnsAndRest text).2 = text
      ∧ (∀ column ∈ (columnsAndRest text).1, column ≠ [] ∧ ',' ∉ column)
      ∧ Leftover ((columnsAndRest text).1 ≠ []) (columnsAndRest text).2 := by
  have hsplit := List.takeWhile_append_dropWhile (p := (· ≠ [])) (l := pieces text)
  have hcolumns : ∀ column ∈ (pieces text).takeWhile (· ≠ []), column ≠ [] ∧ ',' ∉ column := by
    intro column hc
    have hne : decide (column ≠ []) = true := List.mem_takeWhile_imp (p := (· ≠ [])) hc
    exact ⟨of_decide_eq_true hne, comma_notMem_of_mem_pieces ((List.takeWhile_prefix _).subset hc)⟩
  have hjoined := joined_pieces text
  unfold columnsAndRest
  cases hdrop : (pieces text).dropWhile (· ≠ []) with
  | nil =>
      rw [hdrop, List.append_nil] at hsplit
      refine ⟨?_, hcolumns, ⟨by simp, by simp⟩⟩
      show joined ((pieces text).takeWhile (· ≠ [])) ++ [] = text
      rw [hsplit, List.append_nil, hjoined]
  | cons first others =>
      obtain rfl : first = [] := by
        have hfirst := List.head?_dropWhile_not (· ≠ []) (pieces text)
        rw [hdrop] at hfirst
        simpa using hfirst
      -- what starts with an empty piece starts with a comma or is empty
      have hhead : ∀ c ∈ (joined ([] :: others)).head?, c = ',' := by
        cases others with
        | nil => simp [joined]
        | cons second more => simp [joined, List.intercalate_cons_cons]
      rw [hdrop] at hsplit
      by_cases hlist : (pieces text).takeWhile (· ≠ []) = []
      · rw [hlist, List.nil_append] at hsplit
        simp only [hlist, if_true]
        refine ⟨?_, by simp, hhead, fun h => absurd rfl h⟩
        rw [hsplit]
        exact hjoined
      · simp only [hlist, if_false]
        refine ⟨?_, hcolumns, ⟨by simp, fun _ => hhead⟩⟩
        rw [← joined_append hlist (List.cons_ne_nil _ _), hsplit, hjoined]

/-! ## The name in front -/

theorem isNameChar_iff {c : Char} : isNameChar c = true ↔ c ≠ ':' ∧ c ≠ ',' := by
  simp [isNameChar]

theorem isName_iff {name : String} :
    IsName name ↔ name.toList ≠ [] ∧ ∀ c ∈ name.toList, isNameChar c = true := by
  simp only [IsName, isNameChar_iff, ne_eq, String.toList_eq_nil_iff]
  constructor
  · rintro ⟨hne, hcolon, hcomma⟩
    exact ⟨hne, fun c hc => ⟨fun h => hcolon (h ▸ hc), fun h => hcomma (h ▸ hc)⟩⟩
  · rintro ⟨hne, h⟩
    exact ⟨hne, fun hc => (h _ hc).1 rfl, fun hc => (h _ hc).2 rfl⟩

/-- A name ends in front of a character that no name has. -/
theorem splitName {name rest : List Char} (hname : ∀ c ∈ name, isNameChar c = true)
    (hrest : Reading.Stops isNameChar rest) :
    (name ++ rest).takeWhile isNameChar = name ∧ (name ++ rest).dropWhile isNameChar = rest := by
  constructor
  · rw [List.takeWhile_append_of_pos hname, Reading.takeWhile_of_stops hrest, List.append_nil]
  · rw [List.dropWhile_append_of_pos hname, Reading.dropWhile_of_stops hrest]

/-! ## Whole texts -/

theorem toList_scoped (name : String) (columns : List String) :
    (name ++ ":" ++ ",".intercalate columns).toList
      = name.toList ++ ':' :: joined (columns.map String.toList) := by
  simp [joined, String.toList_append]

/-- The compact form of a well-formed relationship is read to its end, and no further. -/
theorem front?_of_wellFormed {relationship : Relationship} {form : String} {rest : List Char}
    (h : relationship.WellFormed) (hform : relationship.compact? = some form)
    (hrest : Leftover relationship.ListsColumns rest) :
    front? (form.toList ++ rest) = some (relationship, rest) := by
  rcases relationship with name | ⟨name, columns⟩ | ⟨name, query⟩
  · obtain rfl : name = form := Option.some.inj hform
    obtain ⟨hne, hchars⟩ := isName_iff.mp h
    have hstop : Reading.Stops isNameChar rest := by
      intro c hc
      rw [hrest.comma c hc]
      decide
    obtain ⟨htake, hdrop⟩ := splitName hchars hstop
    -- nothing that is left over starts with a colon, so the name stands alone
    have hcolon : ∀ scope, rest ≠ ':' :: scope := by
      rintro scope rfl
      exact absurd (hrest.comma ':' rfl) (by decide)
    simp only [front?, htake, hdrop, hne, if_false, String.ofList_toList]
  · obtain rfl : name ++ ":" ++ ",".intercalate columns = form := Option.some.inj hform
    obtain ⟨hne, hchars⟩ := isName_iff.mp h.1
    have hstop : Reading.Stops isNameChar (':' :: (joined (columns.map String.toList) ++ rest)) :=
      Reading.stops_cons.mpr (by decide)
    obtain ⟨htake, hdrop⟩ := splitName hchars hstop
    have hcolumns : ∀ column ∈ columns.map String.toList, column ≠ [] ∧ ',' ∉ column := by
      intro column hc
      obtain ⟨c, hmem, rfl⟩ := List.mem_map.mp hc
      exact ⟨by simpa using (h.2 c hmem).1, (h.2 c hmem).2⟩
    have hleft : Leftover (columns.map String.toList ≠ []) rest :=
      ⟨hrest.comma, fun hlist => hrest.noColumn fun hnil => hlist (by rw [hnil]; rfl)⟩
    rw [toList_scoped, List.append_assoc, List.cons_append]
    simp only [front?, htake, hdrop, hne, if_false, columnsAndRest_joined hcolumns hleft]
    simp [Function.comp_def]
  · cases hform

/-- What stands at the front of a text is well formed, and the text is made up of its compact form
and of what is left over. -/
theorem wellFormed_of_front? {relationship : Relationship} {text rest : List Char}
    (h : front? text = some (relationship, rest)) :
    relationship.WellFormed ∧ Leftover relationship.ListsColumns rest
      ∧ ∃ form, relationship.compact? = some form ∧ form.toList ++ rest = text := by
  have hsplit := List.takeWhile_append_dropWhile (p := isNameChar) (l := text)
  have hchars : ∀ c ∈ text.takeWhile isNameChar, isNameChar c = true :=
    fun c hc => List.mem_takeWhile_imp hc
  unfold front? at h
  by_cases hne : text.takeWhile isNameChar = []
  · simp [hne] at h
  · have hname : IsName (String.ofList (text.takeWhile isNameChar)) :=
      isName_iff.mpr ⟨by simpa using hne, by simpa using hchars⟩
    simp only [hne, if_false] at h
    split at h
    · rename_i scope hdrop
      obtain ⟨rfl, rfl⟩ := Prod.mk.inj (Option.some.inj h)
      obtain ⟨hjoined, hcolumns, hleft⟩ := columnsAndRest_spec scope
      refine ⟨⟨hname, ?_⟩, ⟨hleft.comma, fun hlist => hleft.noColumn ?_⟩, _, rfl, ?_⟩
      · intro column hc
        obtain ⟨c, hmem, rfl⟩ := List.mem_map.mp hc
        exact ⟨by simpa using (hcolumns c hmem).1, by simpa using (hcolumns c hmem).2⟩
      · simpa [Relationship.ListsColumns] using hlist
      · rw [toList_scoped, String.toList_ofList, List.map_map]
        simp only [Function.comp_def, String.toList_ofList, List.map_id', List.append_assoc,
          List.cons_append]
        rw [hjoined, ← hdrop, hsplit]
    · rename_i hcolon
      obtain ⟨rfl, rfl⟩ := Prod.mk.inj (Option.some.inj h)
      refine ⟨hname, ⟨?_, fun hlist => hlist.elim⟩, _, rfl, by rw [String.toList_ofList, hsplit]⟩
      -- the name ends at a mark, and the colon is excluded
      intro c hc
      obtain ⟨more, hmore⟩ := List.head?_eq_some_iff.mp hc
      have hmark : isNameChar c = false := by
        have hhead := List.head?_dropWhile_not isNameChar text
        rwa [hmore] at hhead
      by_contra hcomma
      have hother : c ≠ ':' := fun hc => hcolon more (hc ▸ hmore)
      rw [isNameChar_iff.mpr ⟨hother, hcomma⟩] at hmark
      cases hmark

/-- What stands at the front of a text, and what it leaves over. -/
theorem front?_eq_some_iff {relationship : Relationship} {text rest : List Char} :
    front? text = some (relationship, rest)
      ↔ relationship.WellFormed ∧ Leftover relationship.ListsColumns rest
        ∧ ∃ form, relationship.compact? = some form ∧ form.toList ++ rest = text := by
  constructor
  · exact wellFormed_of_front?
  · rintro ⟨hwell, hrest, form, hform, rfl⟩
    exact front?_of_wellFormed hwell hform hrest

end Compact

namespace Relationship

theorem ofCompact_eq_ok_iff_front? {text : String} {relationship : Relationship} :
    ofCompact text = .ok relationship ↔ Compact.front? text.toList = some (relationship, []) := by
  unfold ofCompact
  split
  · simp_all
  · simp_all
  · rename_i other rest hrest hfront
    have hne : rest ≠ [] := fun h => hrest (h ▸ rfl)
    simp [hfront, hne]

/-- A text reads as a relationship exactly when it is the compact form of that relationship and
the relationship is well formed. -/
theorem ofCompact_eq_ok_iff {text : String} {relationship : Relationship} :
    ofCompact text = .ok relationship
      ↔ relationship.WellFormed ∧ relationship.compact? = some text := by
  rw [ofCompact_eq_ok_iff_front?, Compact.front?_eq_some_iff]
  constructor
  · rintro ⟨hwell, -, form, hform, htext⟩
    rw [List.append_nil, String.toList_inj] at htext
    exact ⟨hwell, htext ▸ hform⟩
  · rintro ⟨hwell, hform⟩
    exact ⟨hwell, ⟨by simp, by simp⟩, text, hform, List.append_nil _⟩

end Relationship

end ResourceQuery
