import ResourceQuery.Config
import ResourceQuery.Proofs.Params.ReadBack

/-!
# Rows of settings

A row of settings comes to its effective names: for each part the last name that is given, or the
standard one. Nothing but these is checked, so names that cannot be used may stand in between, and
settings for different parts may change places (`Names.ofSettings_eq_ok_iff`,
`Names.ofSettings_congr`). Names that can be used keep the parts of a query apart: each part is
found under its own name (`Query.get?_nameOf_toParams`).
-/

set_option autoImplicit false

namespace ResourceQuery

/-! ## Names by part -/

namespace Names

def nameOf (names : Names) : QueryPart → String
  | .columns => names.columns
  | .filters => names.filters
  | .relationships => names.relationships

theorem ext_nameOf {names others : Names} (h : ∀ part, names.nameOf part = others.nameOf part) :
    names = others := by
  obtain ⟨columns, filters, relationships⟩ := names
  obtain ⟨columns', filters', relationships'⟩ := others
  have hcolumns : columns = columns' := h .columns
  have hfilters : filters = filters' := h .filters
  have hrelated : relationships = relationships' := h .relationships
  rw [hcolumns, hfilters, hrelated]

theorem nameOf_set (names : Names) (setting : Setting) (part : QueryPart) :
    (names.set setting).nameOf part
      = if setting.1 = part then setting.2 else names.nameOf part := by
  obtain ⟨target, value⟩ := setting
  cases target <;> cases part <;> rfl

/-- Names that can be used: none is empty, and no two parts have the same. -/
structure Usable (names : Names) : Prop where
  nonempty : ∀ part, names.nameOf part ≠ ""
  distinct : ∀ part other, names.nameOf part = names.nameOf other → part = other

theorem areNonempty_iff {names : Names} :
    names.areNonempty = true ↔ ∀ part, names.nameOf part ≠ "" := by
  have hfields : names.areNonempty = true
      ↔ names.columns ≠ "" ∧ names.filters ≠ "" ∧ names.relationships ≠ "" := by
    simp [areNonempty, and_assoc]
  rw [hfields]
  constructor
  · rintro ⟨hcolumns, hfilters, hrelated⟩ part
    cases part with
    | columns => exact hcolumns
    | filters => exact hfilters
    | relationships => exact hrelated
  · intro h
    exact ⟨h .columns, h .filters, h .relationships⟩

theorem areDistinct_iff_nameOf {names : Names} :
    names.areDistinct = true
      ↔ ∀ part other, names.nameOf part = names.nameOf other → part = other := by
  rw [areDistinct_iff]
  constructor
  · rintro ⟨hfilters, hcolumns, hrelated⟩ part other h
    -- two different parts are one of the three pairs, in one order or the other
    match part, other with
    | .columns, .columns | .filters, .filters | .relationships, .relationships => rfl
    | .columns, .filters => exact absurd h hfilters
    | .columns, .relationships => exact absurd h hcolumns
    | .filters, .columns => exact absurd h.symm hfilters
    | .filters, .relationships => exact absurd h hrelated
    | .relationships, .columns => exact absurd h.symm hcolumns
    | .relationships, .filters => exact absurd h.symm hrelated
  · intro h
    refine ⟨fun heq => ?_, fun heq => ?_, fun heq => ?_⟩
    · exact nomatch h .columns .filters heq
    · exact nomatch h .columns .relationships heq
    · exact nomatch h .filters .relationships heq

theorem usable_iff {names : Names} :
    names.Usable ↔ names.areNonempty = true ∧ names.areDistinct = true := by
  rw [areNonempty_iff, areDistinct_iff_nameOf]
  exact ⟨fun h => ⟨h.nonempty, h.distinct⟩, fun h => ⟨h.1, h.2⟩⟩

theorem check_eq_ok_iff_usable {names checked : Names} :
    names.check = .ok checked ↔ checked = names ∧ names.Usable := by
  rw [check_eq_ok_iff, usable_iff]
  constructor
  · rintro ⟨hnonempty, hdistinct, heq⟩
    exact ⟨heq.symm, hnonempty, hdistinct⟩
  · rintro ⟨heq, hnonempty, hdistinct⟩
    exact ⟨hnonempty, hdistinct, heq.symm⟩

theorem standard_usable : standard.Usable := usable_iff.mpr ⟨by decide, by decide⟩

/-! ## Rows of settings -/

/-- The last name that a row of settings gives for a part. -/
def given? (part : QueryPart) (settings : List Setting) : Option String :=
  ((settings.filter (·.1 = part)).getLast?).map Prod.snd

theorem given?_append (part : QueryPart) (front back : List Setting) :
    given? part (front ++ back) = (given? part back).or (given? part front) := by
  simp only [given?, List.filter_append, List.getLast?_append]
  exact Option.map_or

theorem given?_singleton (part : QueryPart) (setting : Setting) :
    given? part [setting] = if setting.1 = part then some setting.2 else none := by
  by_cases hpart : setting.1 = part
  · simp [given?, hpart]
  · simp [given?, hpart]

theorem given?_cons (part : QueryPart) (setting : Setting) (settings : List Setting) :
    given? part (setting :: settings)
      = (given? part settings).or (if setting.1 = part then some setting.2 else none) := by
  rw [← given?_singleton]
  exact given?_append part [setting] settings

/-- The names that a row of settings comes to: the last that is given, or else the standard one. -/
def effective (settings : List Setting) : Names where
  columns := (given? .columns settings).getD standard.columns
  filters := (given? .filters settings).getD standard.filters
  relationships := (given? .relationships settings).getD standard.relationships

theorem nameOf_effective (settings : List Setting) (part : QueryPart) :
    (effective settings).nameOf part = (given? part settings).getD (standard.nameOf part) := by
  cases part <;> rfl

theorem nameOf_setAll (settings : List Setting) (part : QueryPart) (names : Names) :
    (names.setAll settings).nameOf part = (given? part settings).getD (names.nameOf part) := by
  induction settings generalizing names with
  | nil => rfl
  | cons setting settings ih =>
      have hgiven : (if setting.1 = part then some setting.2 else none).getD (names.nameOf part)
          = if setting.1 = part then setting.2 else names.nameOf part := by
        by_cases hpart : setting.1 = part
        · rw [if_pos hpart, if_pos hpart, Option.getD_some]
        · rw [if_neg hpart, if_neg hpart, Option.getD_none]
      calc (names.setAll (setting :: settings)).nameOf part
          = ((names.set setting).setAll settings).nameOf part := rfl
        _ = (given? part settings).getD ((names.set setting).nameOf part) := ih _
        _ = (given? part (setting :: settings)).getD (names.nameOf part) := by
            rw [given?_cons, Option.getD_or, hgiven, nameOf_set]

theorem setAll_standard (settings : List Setting) :
    standard.setAll settings = effective settings := by
  apply ext_nameOf
  intro part
  rw [nameOf_setAll, nameOf_effective]

/-- Settings come to their effective names, if these can be used. -/
theorem ofSettings_eq_ok_iff {settings : List Setting} {names : Names} :
    ofSettings settings = .ok names ↔ names = effective settings ∧ (effective settings).Usable := by
  rw [ofSettings, setAll_standard, check_eq_ok_iff_usable]

/-- Only what is given in the end counts. -/
theorem ofSettings_congr {settings others : List Setting}
    (h : ∀ part, given? part settings = given? part others) :
    ofSettings settings = ofSettings others := by
  have heffective : effective settings = effective others := by
    apply ext_nameOf
    intro part
    rw [nameOf_effective, nameOf_effective, h part]
  calc ofSettings settings
      = (effective settings).check := by rw [ofSettings, setAll_standard]
    _ = (effective others).check := by rw [heffective]
    _ = ofSettings others := by rw [ofSettings, setAll_standard]

theorem given?_swap (part : QueryPart) {a b : Setting} (h : a.1 ≠ b.1) (front back : List Setting) :
    given? part (front ++ a :: b :: back) = given? part (front ++ b :: a :: back) := by
  rw [given?_append, given?_append, given?_cons, given?_cons, given?_cons, given?_cons]
  by_cases ha : a.1 = part
  · have hb : b.1 ≠ part := fun hb => h (ha.trans hb.symm)
    simp [ha, hb]
  · simp [ha]

/-- One setting for each part that has a name here, in the order of the parts. -/
def row (name : QueryPart → Option String) : List Setting :=
  QueryPart.all.filterMap fun part => (name part).map (part, ·)

theorem given?_row (part : QueryPart) (name : QueryPart → Option String) :
    given? part (row name) = name part := by
  simp only [row, QueryPart.all, List.filterMap_cons, List.filterMap_nil]
  cases part <;>
    cases name .columns <;> cases name .filters <;> cases name .relationships <;> rfl

end Names

/-! ## Parameters under these names -/

/-- What a query has for a part, as it is written. -/
def Query.written? (query : Query) : QueryPart → Option Json
  | .columns => query.columns.map stringsToJson
  | .filters => query.filters.map Params.ofFilter
  | .relationships => query.relationships.map Params.ofRelationships

theorem Query.get?_nameOf_toParams {names : Names} (h : names.Usable) (query : Query)
    (part : QueryPart) :
    Ascending.get? (names.nameOf part) (query.toParams names) = query.written? part := by
  obtain ⟨hcolumns, hfilters, hrelated⟩ :=
    Query.get?_toParams (Names.usable_iff.mp h).2 query
  cases part with
  | columns => exact hcolumns
  | filters => exact hfilters
  | relationships => exact hrelated

end ResourceQuery
