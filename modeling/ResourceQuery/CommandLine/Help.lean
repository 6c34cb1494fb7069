import ResourceQuery.CommandLine.Arguments

/-!
# Help

The pages of help: one for the program, one for each command, and one for the help command.
-/

set_option autoImplicit false

namespace ResourceQuery.CommandLine

def versionLine : String := "apiq 0.3.0"

def CommandName.purpose : CommandName → String
  | .expand => "Expand dotted validation errors into nested JSON"
  | .explain => "Explain a parameter payload: columns, filter tree and relationships"
  | .params => "Show the parameter names in effect"

def CommandName.fileNote : CommandName → Option String
  | .expand =>
    some ("JSON file: a failure payload with an `errors` field, or the flat map itself "
      ++ "(stdin if omitted)")
  | .explain => some "JSON parameter file (stdin if omitted)"
  | .params => none

/-- The options of every command, where `surrounding` is the config file of the environment. -/
def optionLines (surrounding : Option String) : List String :=
  ["Options:",
    "  -c, --config <CONFIG>  Config file (defaults to the user config dir) [env: APIQ_CONFIG="
      ++ surrounding.getD "" ++ "]",
    "  -v, --verbose          Verbose output",
    "  -h, --help             Print help"]

def programLines (surrounding : Option String) : List String :=
  ["Inspect apiq query parameters and validation errors", "", "Usage: apiq [OPTIONS] <COMMAND>", "",
    "Commands:",
    "  expand   " ++ CommandName.purpose .expand,
    "  explain  " ++ CommandName.purpose .explain,
    "  params   " ++ CommandName.purpose .params,
    "  help     Print this message or the help of the given subcommand(s)", ""]
    ++ optionLines surrounding
    ++ ["  -V, --version          Print version", "", "EXAMPLES:",
      "    apiq expand response.json",
      "    echo '\x7b\"items.0.qty\": [\"min:1\"]\x7d' | apiq expand",
      "    apiq explain params.json",
      "    apiq params"]

def commandLines (surrounding : Option String) (name : CommandName) : List String :=
  let file := match name.fileNote with
    | some note => ["Arguments:", "  [FILE]  " ++ note, ""]
    | none => []
  [name.purpose, "",
    "Usage: apiq " ++ name.text ++ " [OPTIONS]" ++ (if name.takesFile then " [FILE]" else ""), ""]
    ++ file ++ optionLines surrounding

def helpLines (surrounding : Option String) : Scope → List String
  | .program => programLines surrounding
  | .command name => commandLines surrounding name

def helpOnHelpLines : List String :=
  ["Print this message or the help of the given subcommand(s)", "", "Usage: apiq help [COMMAND]...",
    "", "Arguments:",
    "  [COMMAND]...  Print help for the subcommand(s)"]

def rejectionLines (reason : Rejection) : List String :=
  ["error: " ++ reason.message, "", "Usage: apiq [OPTIONS] <COMMAND>", "",
    "For more information, try '--help'."]

end ResourceQuery.CommandLine
