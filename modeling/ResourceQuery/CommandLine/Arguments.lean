/-!
# Arguments

The arguments of the program are read from left to right: options of the program, the name of a
command, and the options and the file of the command. Options may stand in front of the command or
after it; where both name a config file, the later one counts. An option that takes a value has it
in the same argument or in the next one, which must not look like an option. A value in an argument
of its own is looked at when the next option or file comes, or else at the end, first for the
command and then for the program: a page of help that is asked for before that is shown whatever
the value is. After two dashes nothing is an option.
-/

set_option autoImplicit false

namespace ResourceQuery.CommandLine

/-- Why arguments are refused. -/
inductive Rejection
  | unknownOption (text : String)
  | unknownCommand (text : String)
  | noCommand
  | unexpectedArgument (text : String)
  /-- An option or a file has no value or an empty one. -/
  | missingValue (option : String)
  | unneededValue (option : String)
  | repeatedOption (option : String)
  deriving DecidableEq, Repr

def Rejection.message : Rejection → String
  | .unknownOption text => "unexpected argument '" ++ text ++ "' found"
  | .unknownCommand text => "unrecognized subcommand '" ++ text ++ "'"
  | .noCommand => "a subcommand is required but none was given"
  | .unexpectedArgument text => "unexpected argument '" ++ text ++ "' found"
  | .missingValue option => "a value is required for '" ++ option ++ "' but none was supplied"
  | .unneededValue option => "unexpected value for '" ++ option ++ "' found; no more were expected"
  | .repeatedOption option => "the argument '" ++ option ++ "' cannot be used multiple times"

inductive CommandName
  | expand
  | explain
  | params
  deriving DecidableEq, Repr

namespace CommandName

def all : List CommandName := [.expand, .explain, .params]

def text : CommandName → String
  | .expand => "expand"
  | .explain => "explain"
  | .params => "params"

def ofText? (text : String) : Option CommandName := all.find? fun name => name.text = text

def takesFile : CommandName → Bool
  | .expand => true
  | .explain => true
  | .params => false

end CommandName

/-- Where arguments are read: in front of the command or after it. -/
inductive Scope
  | program
  | command (name : CommandName)
  deriving DecidableEq, Repr

/-- Reading arguments ends early. -/
inductive Stop
  | help (topic : Scope)
  | helpOnHelp
  | version
  | rejected (reason : Rejection)
  deriving DecidableEq, Repr

def configOption : String := "--config"

def verboseOption : String := "--verbose"

/-! ## Arguments by their looks -/

/-- An argument by its looks. -/
inductive Word
  | plain (text : String)
  /-- Two dashes: no options follow. -/
  | dashes
  /-- An option with a long name, and what follows an equals sign. -/
  | long (name : List Char) (value : Option (List Char))
  | letters (letters : List Char)
  deriving DecidableEq, Repr

/-- The part before the first equals sign, and the part after it if there is one. -/
def cutAtEquals : List Char → List Char × Option (List Char)
  | [] => ([], none)
  | c :: rest =>
    if c = '=' then ([], some rest)
    else
      let (before, after) := cutAtEquals rest
      (c :: before, after)

/-- The looks of an argument. A single dash is no option. -/
def Word.ofText (text : String) : Word :=
  match text.toList with
  | ['-', '-'] => .dashes
  | '-' :: '-' :: rest => .long (cutAtEquals rest).1 (cutAtEquals rest).2
  | '-' :: letter :: rest => .letters (letter :: rest)
  | _ => .plain text

/-! ## One scope -/

/-- What is still to be done about an option that names the config file. -/
inductive Pending
  | nothing
  | wanted
  /-- Its value is there but has not been looked at. -/
  | held (value : String)
  deriving DecidableEq, Repr

/-- What is given in one scope. -/
structure Given where
  config : Option String
  verbose : Bool
  file : Option String
  pending : Pending
  closed : Bool
  deriving DecidableEq, Repr

namespace Given

def nothing : Given := ⟨none, false, none, .nothing, false⟩

def setConfig (given : Given) (value : String) : Except Stop Given :=
  if value.isEmpty then .error (.rejected (.missingValue configOption))
  else if given.config.isSome then .error (.rejected (.repeatedOption configOption))
  else .ok { given with config := some value }

/-- Looks at the value of an option that is pending, which has to be there. -/
def settle (given : Given) : Except Stop Given :=
  match given.pending with
  | .nothing => .ok given
  | .wanted => .error (.rejected (.missingValue configOption))
  | .held value => { given with pending := .nothing }.setConfig value

def setVerbose (given : Given) : Except Stop Given :=
  if given.verbose then .error (.rejected (.repeatedOption verboseOption))
  else .ok { given with verbose := true }

def setFile (given : Given) (value : String) : Except Stop Given :=
  if given.file.isSome then .error (.rejected (.unexpectedArgument value))
  else if value.isEmpty then .error (.rejected (.missingValue "[FILE]"))
  else .ok { given with file := some value }

/-- A value that stands right after the letter of its option, where an equals sign may come
first. -/
def attached : List Char → String
  | '=' :: value => String.ofList value
  | value => String.ofList value

/-- Takes options of one letter. The last of them may have its value in the same argument. -/
def takeLetters (scope : Scope) (given : Given) : List Char → Except Stop Given
  | [] => .ok given
  | 'v' :: rest => do takeLetters scope (← given.setVerbose) rest
  | ['c'] => .ok { given with pending := .wanted }
  | 'c' :: rest => given.setConfig (attached rest)
  | 'h' :: _ => .error (.help scope)
  | letter :: _ =>
    if letter = 'V' ∧ scope = .program then .error .version
    else .error (.rejected (.unknownOption (String.ofList ['-', letter])))

/-- Takes an option with a long name. Only that for the config file has a value. -/
def takeLong (scope : Scope) (given : Given) (name : List Char) (value : Option (List Char)) :
    Except Stop Given :=
  let option := "--" ++ String.ofList name
  -- The options without a value; that for the version is one of the program only.
  let plain := [verboseOption, "--help"] ++ if scope = .program then ["--version"] else []
  if option = configOption then
    match value with
    | some value => given.setConfig (String.ofList value)
    | none => .ok { given with pending := .wanted }
  else if option ∉ plain then .error (.rejected (.unknownOption option))
  else if value.isSome then .error (.rejected (.unneededValue option))
  else if option = verboseOption then given.setVerbose
  else if option = "--help" then .error (.help scope)
  else .error .version

def takePlain (command : CommandName) (given : Given) (text : String) : Except Stop Given :=
  if command.takesFile then given.setFile text
  else .error (.rejected (.unexpectedArgument text))

def take (command : CommandName) (given : Given) (text : String) : Except Stop Given :=
  if given.closed then do (← given.settle).takePlain command text
  else
    match Word.ofText text with
    | .plain value =>
      if given.pending = .wanted then .ok { given with pending := .held value }
      else do (← given.settle).takePlain command value
    | .dashes => .ok { given with closed := true }
    | .long option value => do (← given.settle).takeLong (.command command) option value
    | .letters letters => do (← given.settle).takeLetters (.command command) letters

end Given

/-! ## All arguments -/

structure Invocation where
  command : CommandName
  file : Option String
  /-- The config file that was named for this run. -/
  config : Option String
  verbose : Bool
  deriving DecidableEq, Repr

/-- The config file of a run: that of the command, of the program, or of the environment. The
environment is asked wherever no argument names the file, and it must not name an empty one. -/
def chooseConfig (surrounding : Option String) (program command : Given) :
    Except Stop (Option String) :=
  if surrounding = some "" ∧ (program.config.isNone ∨ command.config.isNone) then
    .error (.rejected (.missingValue configOption))
  else .ok (command.config <|> program.config <|> surrounding)

def readCommand (surrounding : Option String) (program : Given) (command : CommandName)
    (arguments : List String) : Except Stop Invocation := do
  let given ← arguments.foldlM (Given.take command) Given.nothing
  let given ← given.settle
  let program ← program.settle
  let config ← chooseConfig surrounding program given
  return ⟨command, given.file, config, program.verbose || given.verbose⟩

/-- What the arguments after the name of the help command ask for. -/
def readHelp : List String → Stop
  | [] => .help .program
  | ["help"] => .helpOnHelp
  | [text] =>
    match CommandName.ofText? text with
    | some name => .help (.command name)
    | none => .rejected (.unknownCommand text)
  | text :: other :: _ =>
    .rejected (.unknownCommand (if (CommandName.ofText? text).isSome then other else text))

/-- The command that arguments name, where `surrounding` is the config file of the environment. -/
def readProgram (surrounding : Option String) (given : Given) :
    List String → Except Stop Invocation
  | [] => do
    let _ ← given.settle
    .error (.rejected .noCommand)
  | text :: rest =>
    match Word.ofText text with
    | .plain value =>
      -- A word is the value of an option that waits for one, or else a command.
      if given.pending = .wanted then
        readProgram surrounding { given with pending := .held value } rest
      else
        match CommandName.ofText? value with
        | some command => readCommand surrounding given command rest
        | none =>
          if value = "help" then .error (readHelp rest)
          else .error (.rejected (.unknownCommand value))
    -- No command can follow, because after two dashes nothing is one.
    | .dashes => .error (.rejected .noCommand)
    | .long option value => do
      readProgram surrounding (← (← given.settle).takeLong .program option value) rest
    | .letters letters => do
      readProgram surrounding (← (← given.settle).takeLetters .program letters) rest

/-- The command that arguments ask for. -/
def read (surrounding : Option String) (arguments : List String) : Except Stop Invocation :=
  readProgram surrounding .nothing arguments

end ResourceQuery.CommandLine
