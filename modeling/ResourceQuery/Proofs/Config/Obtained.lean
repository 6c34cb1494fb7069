import ResourceQuery.Proofs.Config.Settings

/-!
# Names that a configuration can have

A document gives the names in its table of names, or in an array, and comes to what a row of
settings that gives the same names comes to (`Config.namesOfText_of_gives`). Files are read as
documents, and without one the standard names count. So in all ways there are, the names that are
obtained are those that can be used (`Config.obtained_iff_usable`). The main statement puts this
together with the settings: `Config.names_valid`.
-/

set_option autoImplicit false

namespace ResourceQuery

/-! ## Documents -/

namespace Config

open Names (given? given?_row row)

/-- What a document has for each part, where its names can be read: the fields of its table of
names, or the items of an array in the order of the parts. There is nothing for any part without
such a table, or with a moment in its place. -/
def entries? (document : Toml) : Option (QueryPart → Option Toml) :=
  match document.field? namesField with
  | none => some fun _ => none
  | some (.table fields) => some fun part => (Toml.table fields).field? part.field
  | some (.array items) => some fun part => items[QueryPart.all.idxOf part]?
  | some (.moment _) => some fun _ => none
  | some _ => none

/-- A document gives the names that a row of settings gives in the end, and no others. -/
def Gives (document : Toml) (settings : List Setting) : Prop :=
  ∃ entry, entries? document = some entry
    ∧ ∀ part, entry part = (given? part settings).map .string

/-- The settings for the parts that have a value. -/
def settingsBy? (entry : QueryPart → Option Toml) (parts : List QueryPart) :
    Option (List Setting) :=
  (parts.filterMap fun part => (entry part).map (part, ·)).mapM fun (part, value) =>
    settingOf? part value

theorem settingsOfItems?_eq (items : List Toml) :
    settingsOfItems? items
      = settingsBy? (fun part => items[QueryPart.all.idxOf part]?) QueryPart.all := by
  match items with
  | [] => rfl
  | [_] => rfl
  | [_, _] => rfl
  | _ :: _ :: _ :: _ => rfl

theorem settingsOf?_eq (document : Toml) :
    settingsOf? document = (entries? document).bind (settingsBy? · QueryPart.all) := by
  unfold settingsOf? entries?
  generalize document.field? namesField = found
  match found with
  | none => rfl
  | some (.table _) => rfl
  | some (.array items) => exact settingsOfItems?_eq items
  | some (.moment _) => rfl
  | some (.string _) | some (.integer _) | some (.float _) | some (.boolean _) => rfl

/-- Texts are settings, each for its part. -/
theorem settingsBy?_texts {entry : QueryPart → Option Toml} {name : QueryPart → Option String}
    (h : ∀ part, entry part = (name part).map .string) (parts : List QueryPart) :
    settingsBy? entry parts = some (parts.filterMap fun part => (name part).map (part, ·)) := by
  induction parts with
  | nil => rfl
  | cons part parts ih =>
      unfold settingsBy? at ih ⊢
      cases hname : name part with
      | none =>
          have hentry : entry part = none := by rw [h part, hname]; rfl
          simp only [List.filterMap_cons, hentry, hname, Option.map_none]
          exact ih
      | some value =>
          have hentry : entry part = some (.string value) := by rw [h part, hname]; rfl
          simp only [List.filterMap_cons, hentry, hname, Option.map_some, List.mapM_cons, ih]
          rfl

/-- Nothing but a text is a setting. -/
theorem exists_text_of_settingsBy? {entry : QueryPart → Option Toml} {parts : List QueryPart}
    {settings : List Setting} (h : settingsBy? entry parts = some settings) :
    ∀ part ∈ parts, ∃ name : Option String, entry part = name.map .string := by
  induction parts generalizing settings with
  | nil => simp
  | cons part parts ih =>
      unfold settingsBy? at ih h
      intro other hother
      -- a part without a value is left out, and any other has to be read before the rest
      cases hentry : entry part with
      | none =>
          simp only [List.filterMap_cons, hentry, Option.map_none] at h
          rcases List.mem_cons.mp hother with rfl | hother
          · exact ⟨none, hentry⟩
          · exact ih h other hother
      | some value =>
          simp only [List.filterMap_cons, hentry, Option.map_some, List.mapM_cons,
            Option.bind_eq_bind, Option.bind_eq_some_iff] at h
          obtain ⟨setting, hsetting, rest, hrest, -⟩ := h
          rcases List.mem_cons.mp hother with rfl | hother
          · match value, hsetting with
            | .string name, _ => exact ⟨some name, hentry⟩
          · exact ih hrest other hother

theorem settingsOf?_of_gives {document : Toml} {settings : List Setting}
    (h : Gives document settings) :
    settingsOf? document = some (row fun part => given? part settings) := by
  obtain ⟨entry, hentries, hentry⟩ := h
  rw [settingsOf?_eq, hentries]
  exact settingsBy?_texts hentry QueryPart.all

theorem gives_of_settingsOf? {document : Toml} {settings : List Setting}
    (h : settingsOf? document = some settings) : Gives document settings := by
  rw [settingsOf?_eq, Option.bind_eq_some_iff] at h
  obtain ⟨entry, hentries, hsettings⟩ := h
  have hall : ∀ part : QueryPart, part ∈ QueryPart.all := by
    intro part
    cases part <;> decide
  -- since the settings could be read, each part has a text or nothing
  have htexts : ∀ part, ∃ name : Option String, entry part = name.map .string :=
    fun part => exists_text_of_settingsBy? hsettings part (hall part)
  choose name hname using htexts
  have hrow : row name = settings :=
    Option.some.inj ((settingsBy?_texts hname QueryPart.all).symm.trans hsettings)
  refine ⟨entry, hentries, fun part => ?_⟩
  rw [hname part, ← hrow, given?_row]

/-- A document comes to what the settings that it gives come to. -/
theorem namesOfText_of_gives {text : String} {document : Toml} {settings : List Setting}
    (hread : Toml.read? text = some document) (h : Gives document settings) :
    namesOfText text = (Names.ofSettings settings).mapError .names := by
  -- the row has one setting for each part, and gives the same in the end
  have hgiven : ∀ part, given? part (row fun part => given? part settings) = given? part settings :=
    fun part => given?_row part _
  have hsettings : (Toml.read? text).bind settingsOf?
      = some (row fun part => given? part settings) := by
    rw [hread]
    exact settingsOf?_of_gives h
  calc namesOfText text
      = (Names.ofSettings (row fun part => given? part settings)).mapError .names := by
        rw [namesOfText, hsettings]
    _ = (Names.ofSettings settings).mapError .names := by rw [Names.ofSettings_congr hgiven]

/-- A document fails as such only if it cannot be read, or gives no row of settings. -/
theorem namesOfText_eq_document_iff {text : String} :
    namesOfText text = .error .document
      ↔ ∀ document settings, Toml.read? text = some document → ¬ Gives document settings := by
  constructor
  · intro herror document settings hread hgives
    -- settings come to names or to an error about names, never to this one
    rw [namesOfText_of_gives hread hgives] at herror
    cases hbuilt : Names.ofSettings settings with
    | ok names => rw [hbuilt] at herror; exact nomatch herror
    | error error => rw [hbuilt] at herror; exact nomatch herror
  · intro hnone
    unfold namesOfText
    cases hsettings : (Toml.read? text).bind settingsOf? with
    | none => rfl
    | some settings =>
        obtain ⟨document, hread, hof⟩ := Option.bind_eq_some_iff.mp hsettings
        exact absurd (gives_of_settingsOf? hof) (hnone document settings hread)

/-! ## Names that are obtained -/

/-- The names that a configuration can have: the standard ones, those that a row of settings or a
document comes to, and those that are loaded from a file, where it was said or where it is looked
for. Files may hold anything, and they need not be there. -/
inductive Obtained : Names → Prop
  | standard : Obtained .standard
  | built (settings : List Setting) {names : Names} :
      Names.ofSettings settings = .ok names → Obtained names
  | document (text : String) {names : Names} : namesOfText text = .ok names → Obtained names
  | loaded (read : String → Except FileError String) (path : String) {names : Names} :
      (load read path).result = .ok names → Obtained names
  | discovered (read : String → Except FileError String) (chosen home : Option String)
      {names : Names} : (discover read chosen home).result = .ok names → Obtained names

theorem usable_of_ofSettings {settings : List Setting} {names : Names}
    (h : Names.ofSettings settings = .ok names) : names.Usable := by
  obtain ⟨rfl, husable⟩ := Names.ofSettings_eq_ok_iff.mp h
  exact husable

theorem usable_of_namesOfText {text : String} {names : Names} (h : namesOfText text = .ok names) :
    names.Usable := by
  unfold namesOfText at h
  split at h
  · exact nomatch h
  · rename_i settings _
    cases hbuilt : Names.ofSettings settings with
    | error error => rw [hbuilt] at h; exact nomatch h
    | ok built =>
        rw [hbuilt] at h
        cases h
        exact usable_of_ofSettings hbuilt

theorem result_load (read : String → Except FileError String) (path : String) :
    (load read path).result = (read path).mapError Failure.file >>= namesOfText := by
  unfold load
  cases (read path).mapError Failure.file >>= namesOfText with
  | error failure => rfl
  | ok names => rfl

theorem usable_of_load {read : String → Except FileError String} {path : String} {names : Names}
    (h : (load read path).result = .ok names) : names.Usable := by
  rw [result_load, bind_eq_ok_iff] at h
  obtain ⟨text, -, htext⟩ := h
  exact usable_of_namesOfText htext

theorem usable_of_discover {read : String → Except FileError String} {chosen home : Option String}
    {names : Names} (h : (discover read chosen home).result = .ok names) : names.Usable := by
  unfold discover at h
  split at h
  · exact usable_of_load h
  · split at h
    · split at h
      · exact usable_of_load h
      · cases h
        exact Names.standard_usable
    · cases h
      exact Names.standard_usable

theorem obtained_iff_usable {names : Names} : Obtained names ↔ names.Usable := by
  constructor
  · intro h
    cases h with
    | standard => exact Names.standard_usable
    | built settings h => exact usable_of_ofSettings h
    | document text h => exact usable_of_namesOfText h
    | loaded read path h => exact usable_of_load h
    | discovered read chosen home h => exact usable_of_discover h
  · intro husable
    -- one setting for every part leaves nothing to the standard names
    have heffective : Names.effective (row fun part => some (names.nameOf part)) = names := by
      apply Names.ext_nameOf
      intro part
      rw [Names.nameOf_effective, given?_row]
      rfl
    refine .built (row fun part => some (names.nameOf part)) (Names.ofSettings_eq_ok_iff.mpr ?_)
    exact ⟨heffective.symm, heffective ▸ husable⟩

/-- **The names of a configuration.** Settings come to their effective names exactly when these can
be used, whatever stood in between and in whatever order the parts were named. A document that gives
the same names comes to the same, names or failure, and a document fails in another way only if its
names cannot be read at all. So names are obtained exactly when they can be used, and every part of
a query is then found under its own name. -/
theorem names_valid :
    (∀ settings names, Names.ofSettings settings = .ok names
        ↔ names = Names.effective settings ∧ (Names.effective settings).Usable)
      ∧ (∀ settings others, (∀ part, given? part settings = given? part others) →
          Names.ofSettings settings = Names.ofSettings others)
      ∧ (∀ (front back : List Setting) (a b : Setting), a.1 ≠ b.1 →
          Names.ofSettings (front ++ a :: b :: back) = Names.ofSettings (front ++ b :: a :: back))
      ∧ (∀ text document settings, Toml.read? text = some document → Gives document settings →
          namesOfText text = (Names.ofSettings settings).mapError .names)
      ∧ (∀ text, namesOfText text = .error .document
          ↔ ∀ document settings, Toml.read? text = some document → ¬ Gives document settings)
      ∧ (∀ names, Obtained names ↔ names.Usable)
      ∧ ∀ names, Obtained names → ∀ (query : Query) part,
          Ascending.get? (names.nameOf part) (query.toParams names) = query.written? part := by
  refine ⟨fun _ _ => Names.ofSettings_eq_ok_iff, fun _ _ => Names.ofSettings_congr, ?_,
    fun _ _ _ => namesOfText_of_gives, fun _ => namesOfText_eq_document_iff,
    fun _ => obtained_iff_usable, ?_⟩
  · intro front back a b hparts
    exact Names.ofSettings_congr fun part => Names.given?_swap part hparts front back
  · intro names hnames query part
    exact Query.get?_nameOf_toParams (obtained_iff_usable.mp hnames) query part

/-- Two names change places although they are equal in between, in either order; a name that was
empty at first does not matter; a document that names only one part comes to the failure of that
setting; and a query is written under the names that changed places. -/
theorem names_valid_exchanged :
    Names.ofSettings [(.columns, "filters")]
        = .error (.notDistinct ⟨"filters", "filters", "relationships"⟩)
      ∧ Names.ofSettings [(.columns, "filters"), (.filters, "columns")]
        = .ok ⟨"filters", "columns", "relationships"⟩
      ∧ Names.ofSettings [(.filters, "columns"), (.columns, "filters")]
        = .ok ⟨"filters", "columns", "relationships"⟩
      ∧ Names.ofSettings [(.columns, ""), (.columns, "filters"), (.filters, "columns")]
        = .ok ⟨"filters", "columns", "relationships"⟩
      ∧ namesOfText "[param_names]\ncolumns = \"filters\"\n"
        = .error (.names (.notDistinct ⟨"filters", "filters", "relationships"⟩))
      ∧ Ascending.get? "filters"
          (Query.toParams ⟨"filters", "columns", "relationships"⟩ ⟨some ["id"], some [], none⟩)
        = some (stringsToJson ["id"]) := by
  obtain ⟨hbuilt, hlast, hswap, htext, -, -, hparams⟩ := names_valid
  have hinvalid : Names.ofSettings [(.columns, "filters")]
      = .error (.notDistinct ⟨"filters", "filters", "relationships"⟩) := by decide
  have hchanged : Names.ofSettings [(.columns, "filters"), (.filters, "columns")]
      = .ok ⟨"filters", "columns", "relationships"⟩ :=
    (hbuilt _ _).mpr ⟨by decide, Names.usable_iff.mpr ⟨by decide, by decide⟩⟩
  refine ⟨hinvalid, hchanged, ?_, ?_, ?_, ?_⟩
  · -- the parts in the other order
    exact (hswap [] [] (.filters, "columns") (.columns, "filters") (by decide)).trans hchanged
  · -- a name that was empty at first
    refine (hlast _ [(.columns, "filters"), (.filters, "columns")] fun part => ?_).trans hchanged
    cases part <;> rfl
  · -- a document that names one part
    have hdocument : (Toml.read? "[param_names]\ncolumns = \"filters\"\n").bind settingsOf?
        = some [(.columns, "filters")] := by decide +kernel
    obtain ⟨document, hread, hsettings⟩ := Option.bind_eq_some_iff.mp hdocument
    rw [htext _ _ _ hread (gives_of_settingsOf? hsettings), hinvalid]
    rfl
  · -- the columns are found under their new name
    exact hparams _ (.built _ hchanged) ⟨some ["id"], some [], none⟩ .columns

end Config

end ResourceQuery
