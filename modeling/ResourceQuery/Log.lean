import ResourceQuery.ErrorTree.Expansion
import ResourceQuery.Query.Builder

/-!
# Events

What happens beside the results is told in events. A warning says that something was lost or may be
misread; a debug event says what was done.
-/

set_option autoImplicit false

namespace ResourceQuery

/-- How much an event matters. -/
inductive Level
  | warn
  | debug
  deriving DecidableEq, Repr

def Level.mark : Level → String
  | .warn => "WARN"
  | .debug => "DEBUG"

structure Event where
  level : Level
  text : String
  deriving DecidableEq, Repr

def Event.line (event : Event) : String := event.level.mark ++ " " ++ event.text

theorem Event.line_warn (text : String) : Event.line ⟨.warn, text⟩ = "WARN " ++ text := by
  have hmark : Level.warn.mark ++ " " = "WARN " := by decide
  rw [line, hmark]

def ErrorTree.Warning.event (warning : ErrorTree.Warning) : Event := ⟨.warn, warning.text⟩

/-- The log of expanding flat errors, line by line. -/
def ErrorTree.log (errors : FlatErrors) : List String := (warnings errors).map (·.event.line)

def QueryWarning.event (warning : QueryWarning) : Event := ⟨.warn, warning.text⟩

/-- The log of building a query, line by line. -/
def QueryOp.log (ops : List QueryOp) : List String := (run ops).warnings.map (·.event.line)

end ResourceQuery
