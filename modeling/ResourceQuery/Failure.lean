import ResourceQuery.Files
import ResourceQuery.Names

/-!
# Failures

Everything that can go wrong for a caller, each with its cause. `Failure.message` says what went
wrong, and `Failure.report` adds the cause once more where the failure passes on that of another
part.
-/

set_option autoImplicit false

namespace ResourceQuery

/-- What went wrong. -/
inductive Failure
  /-- A text is not a relationship in compact form. -/
  | compact (error : Compact.Error)
  /-- Parameter names cannot be used. -/
  | names (error : NamesError)
  | transport (text : String)
  | response (status : UInt16) (payload : Json)
  /-- Validation errors are not rows of messages by path. -/
  | malformedErrors (error : DecodeError)
  /-- A data value does not stand for what was wanted, or there is none. -/
  | decoding (error : DecodeError)
  /-- A text is no configuration document, or a name in it is not text. -/
  | document
  | file (error : FileError)

namespace Failure

def message : Failure → String
  | .compact error => error.message
  | .names error => "Configuration error: " ++ error.message
  | .transport text => "Transport error: " ++ text
  | .response status _ => "Request failed with status " ++ toString status.toNat
  | .malformedErrors error => "Malformed error payload: " ++ error.message
  | .decoding error => "JSON error: " ++ error.message
  | .document => "TOML error"
  | .file error => "IO error: " ++ error.message

/-- The cause that a failure passes on from another part. -/
def cause? : Failure → Option String
  | .decoding error => some error.message
  | .file error => some error.message
  | _ => none

/-- The failure of an expansion: the errors are malformed, unless it is their tree that has no data
value. -/
def ofExpansion : DecodeError → Failure
  | .notEncoded error => .decoding (.notEncoded error)
  | error => .malformedErrors error

def report (failure : Failure) : String :=
  match failure.cause? with
  | some cause => failure.message ++ ": " ++ cause
  | none => failure.message

def status? : Failure → Option UInt16
  | .response status _ => some status
  | _ => none

def validationErrors? : Failure → Option Json
  | .response _ payload => payload.field? "errors"
  | _ => none

end Failure

end ResourceQuery
