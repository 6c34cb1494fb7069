import ResourceQuery.Query
import ResourceQuery.Text.Quoted

/-!
# Relationships in compact form

A relationship without a query of its own has a compact form, a text: its name, or its name, a
colon and its columns with commas between them. The name of a text in compact form has at least one
character and neither colon nor comma; a column has at least one character and no comma. The
columns may be missing after the colon. `Relationship.ofCompact` reads such a text, and where it
cannot read all of it, it tells how far the text could be read.
-/

set_option autoImplicit false

namespace ResourceQuery

namespace Relationship

def compact? : Relationship → Option String
  | .bare name => some name
  | .scoped name columns => some (name ++ ":" ++ ",".intercalate columns)
  | .nested _ _ => none

/-- A relationship as it is shown to a reader: its compact form, or its name with a mark that
stands for the query. -/
def display (relationship : Relationship) : String :=
  relationship.compact?.getD (relationship.resource ++ " \x7b..\x7d")

end Relationship

namespace Compact

/-- Why a text is not in compact form. -/
inductive Error
  | noName (text : String)
  /-- The text can be read up to a position in bytes; `rest` follows there. -/
  | trailing (position : Nat) (rest : String)
  deriving DecidableEq, Repr

namespace Error

/-- The position in bytes at which reading stopped. -/
def position : Error → Nat
  | .noName _ => 0
  | .trailing position _ => position

def cause : Error → String
  | .noName text =>
    "Parse failed: Error(Error \x7b input: " ++ Text.quote text ++ ", code: TakeWhile1 \x7d)"
  | .trailing _ rest => "Unexpected trailing content: '" ++ rest ++ "'"

def message (error : Error) : String :=
  "Parse error at position " ++ toString error.position ++ ": " ++ error.cause

end Error

def isNameChar (c : Char) : Bool := c ≠ ':' && c ≠ ','

/-- The pieces of a text between its commas. -/
def pieces : List Char → List (List Char)
  | [] => [[]]
  | c :: rest =>
    if c = ',' then [] :: pieces rest
    else
      match pieces rest with
      | [] => [[c]]
      | first :: others => (c :: first) :: others

def joined (pieces : List (List Char)) : List Char := [','].intercalate pieces

/-- The columns that the text after the colon lists, and what is left of it: everything from the
first empty piece on, with the comma before it if there are columns. -/
def columnsAndRest (text : List Char) : List (List Char) × List Char :=
  let columns := (pieces text).takeWhile (· ≠ [])
  match (pieces text).dropWhile (· ≠ []) with
  | [] => (columns, [])
  | left => (columns, if columns = [] then joined left else ',' :: joined left)

/-- The relationship at the front of a text, and what is left of it. -/
def front? (text : List Char) : Option (Relationship × List Char) :=
  let name := text.takeWhile isNameChar
  if name = [] then none
  else
    match text.dropWhile isNameChar with
    | ':' :: scope =>
      let (columns, rest) := columnsAndRest scope
      some (.scoped (String.ofList name) (columns.map String.ofList), rest)
    | rest => some (.bare (String.ofList name), rest)

end Compact

/-- The relationship that a text in compact form stands for. -/
def Relationship.ofCompact (text : String) : Except Compact.Error Relationship :=
  match Compact.front? text.toList with
  | none => .error (.noName text)
  | some (relationship, []) => .ok relationship
  | some (_, rest) =>
    let left := String.ofList rest
    .error (.trailing (text.utf8ByteSize - left.utf8ByteSize) left)

end ResourceQuery
