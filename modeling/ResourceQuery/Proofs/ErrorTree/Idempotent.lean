import ResourceQuery.Failure
import ResourceQuery.Proofs.ErrorTree.NormalForm
import ResourceQuery.Proofs.ErrorTree.Payload
import ResourceQuery.Proofs.ErrorTree.ReadBack

/-!
# Payloads that are expanded twice

The tree of flat errors is seldom flat errors itself. Where it is, it is a map of messages, its
names have no dots, and the tree of these errors is the same tree (`expand_of_written`). So the
errors of a payload are never changed by a second expansion. Main statement: `expandPayload_atomic`,
which lists what becomes of a payload and says that it stays so.
-/

set_option autoImplicit false

namespace ResourceQuery.ErrorTree

/-! ## Trees that are flat errors -/

/-- Messages by name as the fields of a map. -/
def messageFields (entries : List (String × List String)) : List (String × ErrorTree) :=
  entries.map fun entry => (entry.1, .messages entry.2)

theorem written_eq (entries : List (String × List String)) :
    FlatErrors.written entries = .object (fieldsToJson (messageFields entries)) := by
  rw [FlatErrors.written, Json.object.injEq]
  induction entries with
  | nil => rfl
  | cons entry rest ih =>
      rw [List.map_cons, ih, messageFields, messageFields, List.map_cons, fieldsToJson, toJson,
        stringsToJson]

/-- Flat errors are read as a map of messages. -/
theorem ofJson?_written (entries : List (String × List String)) :
    ofJson? (FlatErrors.written entries) = some (.map (messageFields entries)) := by
  have hread : ∀ field ∈ messageFields entries, ofJson? field.2.toJson = some field.2 := by
    intro field hfield
    obtain ⟨entry, -, rfl⟩ := List.mem_map.mp hfield
    have hmessages : (messages entry.2).Tight := .messages entry.2
    exact hmessages.ofJson?_toJson
  rw [written_eq, ofJson?, fieldsOfJson?_fieldsToJson hread, Option.map_some]

/-- A map of messages is flattened to its own entries. -/
theorem flatten_messageFields (entries : List (String × List String)) :
    flatten (.map (messageFields entries)) = .ofList entries := by
  have hrows : ∀ entries, (fieldRows (messageFields entries)).map
      (fun row => (row.path, row.messages)) = entries := by
    intro entries
    induction entries with
    | nil => rfl
    | cons entry rest ih =>
        have hpath : ".".intercalate [entry.1] = entry.1 := String.intercalate_singleton
        rw [messageFields, List.map_cons, fieldRows, rows, List.map_append, ← messageFields, ih,
          List.map_singleton, List.map_singleton, Row.under, Row.path, hpath]
        rfl
  rw [flatten, rows, hrows]

/-- **A tree that is written as flat errors** is the tree of these errors. -/
theorem expand_of_written {errors : FlatErrors} {entries : List (String × List String)}
    (h : (expand errors).toJson = FlatErrors.written entries) :
    expand (.ofList entries) = expand errors := by
  have htight : (expand errors).Tight := tight_expandLevel _
  have htree : expand errors = .map (messageFields entries) := by
    have hread := htight.ofJson?_toJson
    rw [h, ofJson?_written] at hread
    exact (Option.some.inj hread).symm
  -- the errors are what the tree is flattened to, and its rows give the tree again
  have hflat : FlatErrors.ofList entries = flatten (expand errors) := by
    rw [htree, flatten_messageFields]
  rw [hflat]
  exact expandLevel_of_rows (map_row_entriesOf_flatten errors)

/-! ## Expanding once -/

variable {payload : Json}

/-- Expanding fails exactly where the errors are no object of rows of messages. -/
theorem exists_error_iff {errors : Json} (h : payload.field? errorsField = some errors) :
    (∃ error, (expandPayload payload).result = .error error)
      ↔ ¬ ∃ entries, errors = FlatErrors.written entries := by
  constructor
  · rintro ⟨error, herror⟩ ⟨entries, rfl⟩
    rw [expandPayload_of_written h] at herror
    cases herror
  · intro hnot
    cases hread : FlatErrors.ofJson errors with
    | error error => exact ⟨error, by rw [expandPayload_of_malformed h hread]⟩
    | ok flat =>
        obtain ⟨entries, hentries, -⟩ := FlatErrors.ofJson_eq_ok_iff.mp hread
        exact absurd ⟨entries, hentries⟩ hnot

/-- There is one reason for which expanding fails. -/
theorem malformed_of_error {error : DecodeError}
    (h : (expandPayload payload).result = .error error) :
    Failure.ofExpansion error = .malformedErrors error
      ∧ (expandPayload payload).payload = payload := by
  have hexpands := expands_expandPayload payload
  generalize expandPayload payload = expanded at h hexpands
  cases hexpands with
  | absent hnone => cases h
  | malformed hfield hnot hread =>
      cases h
      obtain ⟨found, expected, rfl⟩ := FlatErrors.eq_unexpected_of_ofJson hread
      exact ⟨rfl, rfl⟩
  | expanded hfield hafter hothers => cases h

/-- Only flat errors are expanded. -/
theorem exists_written_of_result (h : (expandPayload payload).result = .ok true) :
    ∃ entries, payload.field? errorsField = some (FlatErrors.written entries) := by
  have hexpands := expands_expandPayload payload
  generalize expandPayload payload = expanded at h hexpands
  cases hexpands with
  | absent hnone => cases h
  | malformed hfield hnot hread => cases h
  | @expanded entries after hfield hafter hothers => exact ⟨entries, hfield⟩

/-! ## Expanding once more -/

theorem replaceField_replaceField (name : String) (value : Json) (payload : Json) :
    replaceField name value (replaceField name value payload)
      = replaceField name value payload := by
  cases payload with
  | object fields =>
      rw [replaceField, replaceField, List.map_map, Json.object.injEq]
      refine List.map_congr_left fun field _ => ?_
      by_cases hname : field.1 = name
      · simp [hname]
      · simp [hname]
  | _ => rfl

/-- A payload that holds the tree of flat errors is not changed. -/
theorem expandPayload_replaceField {errors : FlatErrors} {old : Json}
    (h : payload.field? errorsField = some old) :
    let after := replaceField errorsField (expand errors).toJson payload
    (expandPayload after).payload = after
      ∧ ((expandPayload after).result = .ok true
        ∨ ∃ error, (expandPayload after).result = .error error) := by
  intro after
  have hafter : after.field? errorsField = some (expand errors).toJson := field?_replaceField _ h
  cases hread : FlatErrors.ofJson (expand errors).toJson with
  -- a tree is no flat errors, as a rule: then it is left alone
  | error error =>
      rw [expandPayload_of_malformed hafter hread]
      exact ⟨rfl, .inr ⟨error, rfl⟩⟩
  | ok flat =>
      -- a tree that is flat errors all the same is its own tree
      obtain ⟨entries, hwritten, -⟩ := FlatErrors.ofJson_eq_ok_iff.mp hread
      rw [hwritten] at hafter
      rw [expandPayload_of_written hafter, expand_of_written hwritten]
      exact ⟨replaceField_replaceField _ _ _, .inl rfl⟩

/-- **Expanding a payload is atomic.** A payload without errors stays as it is. One with errors
fails exactly when they are no object of rows of messages, always for the reason that they are
malformed, and then it stays as it is as well. Otherwise its errors give way to their tree, and
expanding it once more changes nothing. -/
theorem expandPayload_atomic (payload : Json) :
    let first := expandPayload payload
    let second := expandPayload first.payload
    (payload.field? errorsField = none → first.result = .ok false ∧ first.payload = payload)
      ∧ (∀ errors, payload.field? errorsField = some errors →
        ((∃ error, first.result = .error error)
          ↔ ¬ ∃ entries, errors = FlatErrors.written entries)
        ∧ (∀ error, first.result = .error error →
          Failure.ofExpansion error = .malformedErrors error ∧ first.payload = payload)
        ∧ ∀ entries, errors = FlatErrors.written entries →
          first.result = .ok true
            ∧ first.payload.field? errorsField = some (expand (.ofList entries)).toJson
            ∧ SameExcept errorsField payload first.payload)
      ∧ (first.result = .ok true → second.payload = first.payload
        ∧ (second.result = .ok true ∨ ∃ error, second.result = .error error)) := by
  refine ⟨fun hnone => ?_, fun errors hfield => ?_, fun hresult => ?_⟩
  · -- no errors
    rw [expandPayload_of_absent hnone]
    exact ⟨rfl, rfl⟩
  · -- errors that are malformed or not
    refine ⟨exists_error_iff hfield, fun error => malformed_of_error, ?_⟩
    rintro entries rfl
    rw [expandPayload_of_written hfield]
    exact ⟨rfl, field?_replaceField _ hfield, sameExcept_replaceField _ hfield⟩
  · -- expanding again
    obtain ⟨entries, hfield⟩ := exists_written_of_result hresult
    rw [expandPayload_of_written hfield]
    exact expandPayload_replaceField hfield

/-- The errors of an item become an array, which is no longer flat errors but stays as it is. Null
is malformed as errors, and as a payload it has none. -/
theorem expandPayload_atomic_item :
    let payload (errors : Json) : Json := .object [("errors", errors), ("status", .string "422")]
    let first := expandPayload (payload (FlatErrors.written [("0.name", ["a"])]))
    first.result = .ok true
      ∧ first.payload.field? "errors"
        = some (.array [.object [("name", .array [.string "a"])]])
      ∧ (expandPayload first.payload).payload = first.payload
      ∧ ∃ error, (expandPayload (payload .null)).result = .error error
        ∧ Failure.ofExpansion error = .malformedErrors error
        ∧ (expandPayload (payload .null)).payload = payload .null
        ∧ (expandPayload .null).result = .ok false ∧ (expandPayload .null).payload = .null := by
  intro payload first
  obtain ⟨-, herrors, hagain⟩ :=
    expandPayload_atomic (payload (FlatErrors.written [("0.name", ["a"])]))
  obtain ⟨-, -, hwritten⟩ := herrors _ rfl
  obtain ⟨hresult, hafter, -⟩ := hwritten _ rfl
  -- `0.name` is an item with one field
  have htree : expand (.ofList [("0.name", ["a"])])
      = .list [(0, .map [("name", .messages ["a"])])] := by
    let item : Entry := ⟨⟨"0", ["name"]⟩, ["a"]⟩
    let name : Entry := ⟨⟨"name", []⟩, ["a"]⟩
    have hlevel : entriesOf (.ofList [("0.name", ["a"])]) = [item] := by decide +kernel
    have hlist : isListLevel [item] = true := by decide +kernel
    have hindices : slotsOf indexSlot [item] = [0] := by decide +kernel
    have hnone : ownMessages? indexSlot 0 [item] = none := by decide +kernel
    have hbelow : entriesBelow indexSlot 0 [item] = [name] := by decide +kernel
    have hmap : isListLevel [name] = false := by decide +kernel
    have hnames : slotsOf nameSlot [name] = ["name"] := by decide +kernel
    have hown : ownMessages? nameSlot "name" [name] = some ["a"] := by decide +kernel
    rw [expand, hlevel, expandLevel_eq, hlist, if_pos rfl, hindices, List.map_singleton, subtree,
      hnone, hbelow, expandLevel_eq, hmap, if_neg Bool.false_ne_true, hnames, List.map_singleton,
      subtree, hown]
  rw [htree] at hafter
  refine ⟨hresult, hafter, (hagain hresult).1, ?_⟩
  obtain ⟨-, hnull, -⟩ := expandPayload_atomic (payload .null)
  obtain ⟨hfails, hmalformed, -⟩ := hnull .null rfl
  obtain ⟨error, herror⟩ := hfails.mpr (by rintro ⟨entries, ⟨⟩⟩)
  obtain ⟨hreason, hsame⟩ := hmalformed error herror
  exact ⟨error, herror, hreason, hsame, (expandPayload_atomic .null).1 rfl⟩

end ResourceQuery.ErrorTree
