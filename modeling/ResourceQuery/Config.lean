import ResourceQuery.Failure
import ResourceQuery.Log
import ResourceQuery.Toml.Reader

/-!
# Configuration

The parameter names are configured, by a row of settings or by a document with a table
`param_names`, and checked at the end. `Config.load` reads a document from a file, and
`Config.discover` decides which file that is.
-/

set_option autoImplicit false

namespace ResourceQuery

/-! ## Settings -/

/-- A part of a query, whose parameter has a name. -/
inductive QueryPart
  | columns
  | filters
  | relationships
  deriving DecidableEq, Repr

def QueryPart.all : List QueryPart := [.columns, .filters, .relationships]

/-- The field for a part in a table of names. -/
def QueryPart.field : QueryPart → String
  | .columns => "columns"
  | .filters => "filters"
  | .relationships => "relationships"

/-- A name for the parameter of a part. -/
abbrev Setting := QueryPart × String

namespace Setting

def columns (name : String) : Setting := (.columns, name)

def filters (name : String) : Setting := (.filters, name)

def relationships (name : String) : Setting := (.relationships, name)

end Setting

namespace Names

/-- The names with another name for one part. -/
def set (names : Names) : Setting → Names
  | (.columns, value) => { names with columns := value }
  | (.filters, value) => { names with filters := value }
  | (.relationships, value) => { names with relationships := value }

def setAll (names : Names) (settings : List Setting) : Names := settings.foldl set names

/-- The standard names after a row of settings, if they can be used. -/
def ofSettings (settings : List Setting) : Except NamesError Names :=
  (standard.setAll settings).check

end Names

/-! ## Documents -/

namespace Config

def namesField : String := "param_names"

/-- A setting by a value, which has to be text. -/
def settingOf? (part : QueryPart) : Toml → Option Setting
  | .string value => some (part, value)
  | _ => none

/-- The settings by the fields of a table. Parts without a field are not set. -/
def settingsOfTable? (table : Toml) : Option (List Setting) :=
  (QueryPart.all.filterMap fun part => (table.field? part.field).map (part, ·)).mapM
    fun (part, value) => settingOf? part value

/-- The settings by the items of an array, in the order of the parts. -/
def settingsOfItems? (items : List Toml) : Option (List Setting) :=
  (QueryPart.all.zip items).mapM fun (part, value) => settingOf? part value

/-- The settings of a document: those of its table of names, if it has one. The names may also be
the items of an array, of which those after the third do not count. A moment sets nothing. -/
def settingsOf? (document : Toml) : Option (List Setting) :=
  match document.field? namesField with
  | none => some []
  | some (.table fields) => settingsOfTable? (.table fields)
  | some (.array items) => settingsOfItems? items
  | some (.moment _) => some []
  | some _ => none

/-- The names that a document configures, if they can be used. -/
def namesOfText (text : String) : Except Failure Names :=
  match (Toml.read? text).bind settingsOf? with
  | none => .error .document
  | some settings => (Names.ofSettings settings).mapError .names

/-! ## Files -/

structure Loaded where
  result : Except Failure Names
  events : List Event

/-- The names that the file at a path configures, where `read` reads files. -/
def load (read : String → Except FileError String) (path : String) : Loaded :=
  match (read path).mapError Failure.file >>= namesOfText with
  | .ok names => ⟨.ok names, [⟨.debug, "Loaded config from " ++ path⟩]⟩
  | .error failure => ⟨.error failure, []⟩

def withoutFile : Loaded := ⟨.ok .standard, [⟨.debug, "No config file found, using defaults"⟩]⟩

/-- The place of the config file in a user's configuration directory. -/
def pathIn (home : String) : String :=
  (if home.endsWith "/" then home else home ++ "/") ++ "apiq/config.toml"

/-- The names for a user. A chosen file has to be there; the one in the configuration directory
counts only if it is there. -/
def discover (read : String → Except FileError String) (chosen home : Option String) : Loaded :=
  match chosen with
  | some path => load read path
  | none =>
    match home.map pathIn with
    | some path => if namesFile (read path) then load read path else withoutFile
    | none => withoutFile

end Config

end ResourceQuery
