import ResourceQuery.ErrorTree.Content
import ResourceQuery.ErrorTree.Expansion
import ResourceQuery.Json.Decoding

/-!
# Validation errors in payloads

Flat validation errors as a data value are an object whose values are arrays of texts. They come
alone, or as the field `errors` of the payload of a failed request, which `expandPayload` replaces
by their tree. A payload whose errors are not of this form is left as it is.
-/

set_option autoImplicit false

namespace ResourceQuery

/-- The messages of each path among the fields of an object. -/
def FlatErrors.entriesOfFields : List (String × Json) → Decoded (List (String × List String))
  | [] => .ok []
  | (path, value) :: rest => do
    let messages ← Json.decodeStrings value
    let entries ← entriesOfFields rest
    return (path, messages) :: entries

def FlatErrors.ofJson : Json → Decoded FlatErrors
  | .object fields => FlatErrors.ofList <$> FlatErrors.entriesOfFields fields
  | other => .error (.unexpected other.found "a map")

namespace ErrorTree

def errorsField : String := "errors"

/-- The tree of flat errors as a data value, from flat errors as a data value. -/
def expandJson (errors : Json) : Decoded Json := do
  let flat ← FlatErrors.ofJson errors
  (expand flat).encode.mapError .notEncoded

/-- The warnings of expanding a data value; errors of another form give none. -/
def jsonWarnings (errors : Json) : List Warning :=
  match FlatErrors.ofJson errors with
  | .ok flat => warnings flat
  | .error _ => []

/-- What expanding the errors of a payload comes to. -/
structure Expanded where
  /-- Whether there were errors to expand, or why they could not be. -/
  result : Decoded Bool
  payload : Json
  warnings : List Warning

/-- A payload with another value for a field that it has. -/
def replaceField (name : String) (value : Json) : Json → Json
  | .object fields =>
    .object (fields.map fun field => if field.1 = name then (name, value) else field)
  | other => other

/-- Replaces the errors of a payload by their tree. -/
def expandPayload (payload : Json) : Expanded :=
  match payload.field? errorsField with
  | none => ⟨.ok false, payload, []⟩
  | some errors =>
    match expandJson errors with
    | .ok tree => ⟨.ok true, replaceField errorsField tree payload, jsonWarnings errors⟩
    | .error error => ⟨.error error, payload, []⟩

end ErrorTree

end ResourceQuery
