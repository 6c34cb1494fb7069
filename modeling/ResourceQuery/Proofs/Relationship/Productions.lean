import ResourceQuery.Proofs.Relationship.Grammar

/-!
# The productions of compact forms

There are three ways to write a relationship in compact form: its name, its name and a colon, or its
name, a colon and columns with commas between them. `Compact.Denotes` has a production for each, and
says which relationship a text stands for without reading it. Main statement: the texts that are
read are those that the productions make, what they are read as has them as its compact form, and a
compact form is read as the relationship that it was written for exactly when that relationship is
well formed (`Relationship.ofCompact_denotes`).
-/

set_option autoImplicit false

namespace ResourceQuery

namespace Compact

/-- The texts that list columns: a column alone, or a column, a comma and more of them. -/
inductive Lists : String → List String → Prop
  | one {column : String} : IsColumn column → Lists column [column]
  | more {column rest : String} {columns : List String} :
      IsColumn column → Lists rest columns → Lists (column ++ "," ++ rest) (column :: columns)

/-- The texts in compact form, each with the relationship that it stands for. -/
inductive Denotes : String → Relationship → Prop
  | name {name : String} : IsName name → Denotes name (.bare name)
  | noColumns {name : String} : IsName name → Denotes (name ++ ":") (.scoped name [])
  | columns {name scope : String} {columns : List String} :
      IsName name → Lists scope columns → Denotes (name ++ ":" ++ scope) (.scoped name columns)

/-- Columns are listed with commas between them, one at least. -/
theorem lists_iff {text : String} {columns : List String} :
    Lists text columns
      ↔ columns ≠ [] ∧ (∀ column ∈ columns, IsColumn column) ∧ ",".intercalate columns = text := by
  constructor
  · intro h
    induction h with
    | @one column hcolumn =>
        refine ⟨List.cons_ne_nil _ _, ?_, String.intercalate_singleton⟩
        rw [List.forall_mem_singleton]
        exact hcolumn
    | @more column rest columns hcolumn _ ih =>
        obtain ⟨hne, hcolumns, htext⟩ := ih
        refine ⟨List.cons_ne_nil _ _, List.forall_mem_cons.mpr ⟨hcolumn, hcolumns⟩, ?_⟩
        cases columns with
        | nil => exact absurd rfl hne
        | cons second others => rw [String.intercalate_cons_cons, htext]
  · rintro ⟨hne, hcolumns, rfl⟩
    induction columns with
    | nil => exact absurd rfl hne
    | cons first rest ih =>
        obtain ⟨hfirst, hrest⟩ := List.forall_mem_cons.mp hcolumns
        cases rest with
        | nil =>
            rw [String.intercalate_singleton]
            exact .one hfirst
        | cons second others =>
            rw [String.intercalate_cons_cons]
            exact .more hfirst (ih (List.cons_ne_nil _ _) hrest)

/-- The productions make the compact forms of the relationships that are well formed. -/
theorem denotes_iff {text : String} {relationship : Relationship} :
    Denotes text relationship
      ↔ relationship.WellFormed ∧ relationship.compact? = some text := by
  constructor
  · intro h
    cases h with
    | name hname => exact ⟨hname, rfl⟩
    | noColumns hname =>
        refine ⟨⟨hname, List.forall_mem_nil _⟩, ?_⟩
        rw [Relationship.compact?, String.intercalate_nil, String.append_empty]
    | columns hname hscope =>
        obtain ⟨-, hcolumns, hscope⟩ := lists_iff.mp hscope
        refine ⟨⟨hname, hcolumns⟩, ?_⟩
        rw [Relationship.compact?, hscope]
  · rintro ⟨hwell, hform⟩
    rcases relationship with name | ⟨name, columns⟩ | ⟨name, query⟩
    · obtain rfl : name = text := Option.some.inj hform
      exact .name hwell
    · obtain rfl : name ++ ":" ++ ",".intercalate columns = text := Option.some.inj hform
      obtain ⟨hname, hcolumns⟩ := hwell
      by_cases hne : columns = []
      · subst hne
        rw [String.intercalate_nil, String.append_empty]
        exact .noColumns hname
      · exact .columns hname (lists_iff.mpr ⟨hne, hcolumns, rfl⟩)
    · cases hform

end Compact

namespace Relationship

/-- **The compact grammar.** A text is read as a relationship exactly when the productions make it
for that relationship, and then it is the compact form of what was read. A compact form is read as
the relationship that it was written for exactly when the name and the columns of that relationship
can be told from the marks between them. -/
theorem ofCompact_denotes :
    (∀ text relationship,
        ofCompact text = .ok relationship ↔ Compact.Denotes text relationship)
      ∧ (∀ text relationship,
        ofCompact text = .ok relationship → relationship.compact? = some text)
      ∧ ∀ relationship form, relationship.compact? = some form →
        (ofCompact form = .ok relationship ↔ relationship.WellFormed) := by
  refine ⟨?_, ?_, ?_⟩
  · intro text relationship
    rw [ofCompact_eq_ok_iff, Compact.denotes_iff]
  · intro text relationship h
    exact (ofCompact_eq_ok_iff.mp h).2
  · intro relationship form hform
    rw [ofCompact_eq_ok_iff]
    exact and_iff_left hform

/-- A colon may stand in a column, but not in a name: there it starts the columns. -/
theorem ofCompact_denotes_colon :
    ofCompact "author:id,a:b" = .ok (.scoped "author" ["id", "a:b"])
      ∧ compact? (.scoped "author" ["id", "a:b"]) = some "author:id,a:b"
      ∧ ofCompact "a:b" ≠ .ok (.bare "a:b") := by
  have hid : Compact.IsColumn "id" := by
    unfold Compact.IsColumn
    decide
  have hcolon : Compact.IsColumn "a:b" := by
    unfold Compact.IsColumn
    decide
  have hname : Compact.IsName "author" := by
    unfold Compact.IsName
    decide
  have hdenotes : Compact.Denotes "author:id,a:b" (.scoped "author" ["id", "a:b"]) :=
    .columns hname (.more hid (.one hcolon))
  have hread := (ofCompact_denotes.1 _ _).mpr hdenotes
  refine ⟨hread, ofCompact_denotes.2.1 _ _ hread, fun hbare => ?_⟩
  -- the name would have to be one without a colon
  obtain ⟨-, hmark, -⟩ := (ofCompact_denotes.2.2 (.bare "a:b") "a:b" rfl).mp hbare
  exact hmark (by decide)

end Relationship

end ResourceQuery
