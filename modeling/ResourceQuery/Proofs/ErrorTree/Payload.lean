import Mathlib.Data.List.Forall2
import ResourceQuery.Proofs.ErrorTree.Encoding
import ResourceQuery.Proofs.Query.ReadBack

/-!
# Payloads and their errors

Which data values are flat errors (`FlatErrors.ofJson_eq_ok_iff`), and what expanding the errors of
a payload does to it. A payload without errors stays as it is, and so does one whose errors are
malformed; otherwise the field of the errors holds their tree, and all other fields are as they
were. `ErrorTree.Expands` lists these three cases; main statement: there are no others
(`ErrorTree.expands_expandPayload`).
-/

set_option autoImplicit false

namespace ResourceQuery

/-! ## Flat errors as a data value -/

/-- Only a value of another type keeps texts from being read. -/
theorem eq_unexpected_of_decodeStrings {value : Json} {error : DecodeError}
    (h : Json.decodeStrings value = .error error) :
    ∃ found expected, error = .unexpected found expected := by
  have hitem : ∀ item : Json, Json.decodeString item = .error error →
      ∃ found expected, error = .unexpected found expected := by
    intro item herror
    cases item <;> cases herror <;> exact ⟨_, _, rfl⟩
  -- the first item that is no text decides
  have heach : ∀ items : List Json, Json.decodeEach Json.decodeString items = .error error →
      ∃ found expected, error = .unexpected found expected := by
    intro items
    induction items with
    | nil => rintro ⟨⟩
    | cons item rest ih =>
        intro herror
        rw [Json.decodeEach, bind_eq_error_iff] at herror
        rcases herror with hfirst | ⟨text, -, herror⟩
        · exact hitem item hfirst
        · rcases bind_eq_error_iff.mp herror with hrest | ⟨texts, -, hpure⟩
          · exact ih hrest
          · exact absurd hpure pure_ne_error
  cases value with
  | array items => exact heach items h
  | _ =>
      cases h
      exact ⟨_, _, rfl⟩

namespace FlatErrors

/-- Messages by path as a data value: an object whose values are arrays of texts. -/
def written (entries : List (String × List String)) : Json :=
  .object (entries.map fun entry => (entry.1, stringsToJson entry.2))

theorem entriesOfFields_eq_ok_iff {fields : List (String × Json)}
    {entries : List (String × List String)} :
    entriesOfFields fields = .ok entries
      ↔ fields = entries.map fun entry => (entry.1, stringsToJson entry.2) := by
  induction fields generalizing entries with
  | nil =>
      rw [entriesOfFields]
      cases entries with
      | nil => simp
      | cons entry rest => simp
  | cons field rest ih =>
      obtain ⟨path, value⟩ := field
      rw [entriesOfFields]
      simp only [bind_eq_ok_iff, pure_eq_ok_iff, decodeStrings_eq_ok_iff, ih]
      constructor
      · rintro ⟨messages, rfl, more, rfl, rfl⟩
        rfl
      · intro h
        cases entries with
        | nil => cases h
        | cons entry more =>
            rw [List.map_cons, List.cons.injEq, Prod.mk.injEq] at h
            obtain ⟨⟨rfl, rfl⟩, rfl⟩ := h
            exact ⟨entry.2, rfl, more, rfl, rfl⟩

/-- A data value is flat errors exactly when it is an object whose values are arrays of texts. -/
theorem ofJson_eq_ok_iff {errors : Json} {flat : FlatErrors} :
    ofJson errors = .ok flat ↔ ∃ entries, errors = written entries ∧ ofList entries = flat := by
  cases errors with
  | object fields =>
      rw [ofJson, map_eq_ok_iff]
      simp only [entriesOfFields_eq_ok_iff, written, Json.object.injEq]
  | _ => simp [ofJson, written]

theorem ne_written_of_ofJson {errors : Json} {error : DecodeError}
    (h : ofJson errors = .error error) (entries : List (String × List String)) :
    errors ≠ written entries := by
  intro heq
  have hok : ofJson errors = .ok (ofList entries) := ofJson_eq_ok_iff.mpr ⟨entries, heq, rfl⟩
  cases h.symm.trans hok

theorem eq_unexpected_of_ofJson {errors : Json} {error : DecodeError}
    (h : ofJson errors = .error error) :
    ∃ found expected, error = .unexpected found expected := by
  -- the first field that is no row of texts decides
  have hfields : ∀ fields : List (String × Json), entriesOfFields fields = .error error →
      ∃ found expected, error = .unexpected found expected := by
    intro fields
    induction fields with
    | nil => rintro ⟨⟩
    | cons field rest ih =>
        intro herror
        rw [entriesOfFields, bind_eq_error_iff] at herror
        rcases herror with hvalue | ⟨messages, -, herror⟩
        · exact eq_unexpected_of_decodeStrings hvalue
        · rcases bind_eq_error_iff.mp herror with hrest | ⟨entries, -, hpure⟩
          · exact ih hrest
          · exact absurd hpure pure_ne_error
  cases errors with
  | object fields => exact hfields fields (map_eq_error_iff.mp h)
  | _ =>
      cases h
      exact ⟨_, _, rfl⟩

end FlatErrors

namespace ErrorTree

/-! ## Replacing a field -/

/-- Two objects with the same names in the same order, and the same values except for one name. -/
def SameExcept (name : String) (before after : Json) : Prop :=
  ∃ fields fields', before = .object fields ∧ after = .object fields' ∧
    List.Forall₂ (fun field field' => field'.1 = field.1 ∧ (field.1 ≠ name → field'.2 = field.2))
      fields fields'

variable {name : String} {payload : Json}

theorem field?_replaceField {old : Json} (value : Json) (h : payload.field? name = some old) :
    (replaceField name value payload).field? name = some value := by
  cases payload with
  | object fields =>
      change Ascending.get? name fields = some old at h
      show Ascending.get? name (fields.map _) = some value
      induction fields with
      | nil => cases h
      | cons field rest ih =>
          obtain ⟨other, content⟩ := field
          by_cases hname : other = name
          · rw [List.map_cons, if_pos hname, Ascending.get?, if_pos rfl]
          · rw [Ascending.get?, if_neg hname] at h
            rw [List.map_cons, if_neg hname, Ascending.get?, if_neg hname, ih h]
  | _ => cases h

theorem sameExcept_replaceField {old : Json} (value : Json) (h : payload.field? name = some old) :
    SameExcept name payload (replaceField name value payload) := by
  cases payload with
  | object fields =>
      refine ⟨fields, _, rfl, rfl, ?_⟩
      rw [List.forall₂_map_right_iff, List.forall₂_same]
      intro field _
      by_cases hname : field.1 = name
      · rw [if_pos hname]
        exact ⟨hname.symm, fun hne => absurd hname hne⟩
      · rw [if_neg hname]
        exact ⟨rfl, fun _ => rfl⟩
  | _ => cases h

/-! ## Expanding the errors of a payload -/

theorem expandPayload_of_absent (h : payload.field? errorsField = none) :
    expandPayload payload = ⟨.ok false, payload, []⟩ := by
  rw [expandPayload, h]

theorem expandPayload_of_malformed {errors : Json} {error : DecodeError}
    (h : payload.field? errorsField = some errors)
    (hread : FlatErrors.ofJson errors = .error error) :
    expandPayload payload = ⟨.error error, payload, []⟩ := by
  simp only [expandPayload, h, expandJson_eq, hread]
  rfl

theorem expandPayload_of_written {entries : List (String × List String)}
    (h : payload.field? errorsField = some (FlatErrors.written entries)) :
    expandPayload payload
      = ⟨.ok true, replaceField errorsField (expand (.ofList entries)).toJson payload,
          warnings (.ofList entries)⟩ := by
  have hread : FlatErrors.ofJson (FlatErrors.written entries) = .ok (.ofList entries) :=
    FlatErrors.ofJson_eq_ok_iff.mpr ⟨entries, rfl, rfl⟩
  simp only [expandPayload, h, expandJson_eq, jsonWarnings, hread]
  rfl

/-- What expanding the errors of a payload may come to. -/
inductive Expands (payload : Json) : Expanded → Prop
  | absent (h : payload.field? errorsField = none) : Expands payload ⟨.ok false, payload, []⟩
  | malformed {errors : Json} {error : DecodeError}
      (hfield : payload.field? errorsField = some errors)
      (hnot : ∀ entries, errors ≠ FlatErrors.written entries)
      (hread : FlatErrors.ofJson errors = .error error) :
      Expands payload ⟨.error error, payload, []⟩
  | expanded {entries : List (String × List String)} {after : Json}
      (hfield : payload.field? errorsField = some (FlatErrors.written entries))
      (hafter : after.field? errorsField = some (expand (.ofList entries)).toJson)
      (hothers : SameExcept errorsField payload after) :
      Expands payload ⟨.ok true, after, warnings (.ofList entries)⟩

/-- **Only well-formed errors are touched**, and nothing but the errors. -/
theorem expands_expandPayload (payload : Json) : Expands payload (expandPayload payload) := by
  cases hfield : payload.field? errorsField with
  | none =>
      rw [expandPayload_of_absent hfield]
      exact .absent hfield
  | some errors =>
      cases hread : FlatErrors.ofJson errors with
      | error error =>
          rw [expandPayload_of_malformed hfield hread]
          exact .malformed hfield (FlatErrors.ne_written_of_ofJson hread) hread
      | ok flat =>
          obtain ⟨entries, rfl, -⟩ := FlatErrors.ofJson_eq_ok_iff.mp hread
          rw [expandPayload_of_written hfield]
          exact .expanded hfield (field?_replaceField _ hfield) (sameExcept_replaceField _ hfield)

end ErrorTree

end ResourceQuery
