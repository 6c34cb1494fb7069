import ResourceQuery.CommandLine.Help
import ResourceQuery.CommandLine.Listing
import ResourceQuery.Config
import ResourceQuery.ErrorTree.Payload
import ResourceQuery.Json.Printer
import ResourceQuery.Json.Reader
import ResourceQuery.Query.Rendering

/-!
# Running a command

A command reads its configuration and its input, writes lines, and tells of events on the way.
`Session` is such a run as a value: what was written so far is kept when it fails, so that one can
ask what a failed run has written. `run` gives the outcome of the program for its arguments and what
it is surrounded by.
-/

set_option autoImplicit false

namespace ResourceQuery.CommandLine

/-- What the program is surrounded by. -/
structure World where
  read : String → Except FileError String
  input : Except FileError String
  configFile : Option String
  /-- The user's configuration directory. -/
  configHome : Option String
  colored : Bool
  /-- The events that the environment wants to be shown, if it says so. -/
  wanted : Option (Event → Bool)

/-- Whether an event is shown. Where the environment does not decide, warnings are, and asking for
more output shows the others too. -/
def World.shows (world : World) (verbose : Bool) (event : Event) : Bool :=
  match world.wanted with
  | some wanted => wanted event
  | none => verbose || event.level = .warn

/-- Something on the standard error. -/
inductive Notice
  /-- An event, which is shown with the time at which it is told. -/
  | event (event : Event)
  | line (text : String)
  deriving DecidableEq, Repr

/-- A notice without its time. -/
def Notice.text : Notice → String
  | .event told => told.line
  | .line text => text

structure Outcome where
  exit : UInt32
  stdout : String
  stderr : List Notice
  deriving DecidableEq, Repr

/-! ## Problems -/

/-- Why a command fails. -/
inductive Problem
  /-- The configuration cannot be loaded, from a file that was named or not. -/
  | config (path : Option String) (failure : Failure)
  | file (path : String) (error : FileError)
  | input (error : FileError)
  /-- The input is no data value. -/
  | notData
  | notObject
  | failure (failure : Failure)

def Problem.text : Problem → String
  | .config (some path) cause => "Failed to load config from " ++ path ++ ": " ++ cause.report
  | .config none cause => "Failed to load config: " ++ cause.report
  | .file path error => "Failed to read " ++ path ++ ": " ++ error.message
  | .input error => "Failed to read stdin: " ++ error.message
  | .notData => "Input is not valid JSON"
  | .notObject => "Parameters must be a JSON object"
  | .failure cause => cause.report

/-! ## Sessions -/

/-- What a run has written: its output, and the events told on the way. -/
structure Written where
  lines : List String
  events : List Event
  deriving DecidableEq, Repr

/-- A run that writes and may fail. -/
abbrev Session := ExceptT Problem (StateM Written)

namespace Session

def say (lines : List String) : Session Unit :=
  modify fun written => { written with lines := written.lines ++ lines }

def tell (events : List Event) : Session Unit :=
  modify fun written => { written with events := written.events ++ events }

/-- A result that may be a problem. -/
def check {ε α : Type} (problem : ε → Problem) : Except ε α → Session α
  | .ok value => return value
  | .error error => throw (problem error)

/-- What a session comes to, and what it writes. -/
def transcript {α : Type} (session : Session α) : Except Problem α × Written :=
  (ExceptT.run session).run ⟨[], []⟩

end Session

def loadNames (world : World) (config : Option String) : Session Names := do
  let loaded := match config with
    | some path => Config.load world.read path
    | none => Config.discover world.read none world.configHome
  Session.tell loaded.events
  Session.check (Problem.config config) loaded.result

def readInput (world : World) : Option String → Session String
  | some path => Session.check (Problem.file path) (world.read path)
  | none => Session.check Problem.input world.input

def readJson (world : World) (file : Option String) : Session Json := do
  let text ← readInput world file
  match Json.read? text with
  | some value => return value
  | none => throw .notData

/-! ## Commands -/

/-- The expansion of errors: of those in a payload, or of those that the input is. -/
def expansion (input : Json) : Decoded Json :=
  if (input.field? ErrorTree.errorsField).isSome then
    let expanded := ErrorTree.expandPayload input
    expanded.result.map fun _ => expanded.payload
  else ErrorTree.expandJson input

def expansionEvents (input : Json) : List Event :=
  let warnings :=
    if (input.field? ErrorTree.errorsField).isSome then (ErrorTree.expandPayload input).warnings
    else ErrorTree.jsonWarnings input
  warnings.map (·.event)

def expand (world : World) (file : Option String) : Session Unit := do
  let input ← readJson world file
  Session.tell (expansionEvents input)
  let expanded ← Session.check (fun error => .failure (.ofExpansion error)) (expansion input)
  Session.say [expanded.page 0]

def readParams (world : World) (file : Option String) : Session Params := do
  match (← readJson world file).fields? with
  | some params => return params
  | none => throw .notObject

def render (names : Names) (query : Query) : Session Params :=
  Session.check (fun error => .failure (.decoding (.notEncoded error))) (query.renderParams names)

/-- Writes what the parameters in the input ask for. The query string comes last, and its parameters
are rendered only when all lines before it have been written. -/
def explain (world : World) (names : Names) (file : Option String) : Session Unit := do
  let params ← readParams world file
  let query ← Session.check (fun error => .failure (.decoding error)) (Query.ofParams names params)
  Session.say (queryTitle world.colored)
  if query.isEmpty then Session.say (emptyQueryLines world.colored)
  else
    Session.say (partLines world.colored query)
    Session.say (queryStringTitle world.colored)
    let rendered ← render names query
    Session.say (queryStringLine world.colored (QueryString.ofParams rendered))

def Invocation.run (world : World) (invocation : Invocation) : Session Unit := do
  match invocation.command with
  | .expand => expand world invocation.file
  | .explain =>
    let names ← loadNames world invocation.config
    explain world names invocation.file
  | .params =>
    let names ← loadNames world invocation.config
    Session.say (namesLines world.colored names)

/-! ## Outcomes -/

/-- Lines as text, each with its end. -/
def unlines (lines : List String) : String := String.join (lines.map (· ++ "\n"))

/-- Those of some events that are shown. -/
def World.notices (world : World) (verbose : Bool) (events : List Event) : List Notice :=
  (events.filter (world.shows verbose)).map .event

/-- How a run that failed says why. -/
def Problem.line (colored : Bool) (problem : Problem) : String :=
  paint colored .error "Error:" ++ " " ++ problem.text

def Outcome.ofTranscript (world : World) (verbose : Bool) :
    Except Problem Unit × Written → Outcome
  | (.ok _, written) => ⟨0, unlines written.lines, world.notices verbose written.events⟩
  | (.error problem, written) =>
    ⟨1, unlines written.lines,
      world.notices verbose written.events ++ [.line (problem.line world.colored)]⟩

def Outcome.ofStop (surrounding : Option String) : Stop → Outcome
  | .help topic => ⟨0, unlines (helpLines surrounding topic), []⟩
  | .helpOnHelp => ⟨0, unlines helpOnHelpLines, []⟩
  | .version => ⟨0, unlines [versionLine], []⟩
  | .rejected reason => ⟨2, "", (rejectionLines reason).map .line⟩

/-- The outcome of the program for its arguments. -/
def run (world : World) (arguments : List String) : Outcome :=
  match CommandLine.read world.configFile arguments with
  | .ok invocation =>
    Outcome.ofTranscript world invocation.verbose (invocation.run world).transcript
  | .error stop => Outcome.ofStop world.configFile stop

end ResourceQuery.CommandLine
