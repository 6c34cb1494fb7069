import ResourceQuery.CommandLine.Run

/-!
# The program

Reads what the program is surrounded by, and hands it to `CommandLine.run`. Only the files that a
run can ask for are read.
-/

set_option autoImplicit false

namespace ResourceQuery.CommandLine

def fileError : IO.Error → FileError
  | .noFileOrDirectory .. => .notFound
  | .inappropriateType .. => .isDirectory
  | error => .other (toString error)

def textOf (bytes : ByteArray) : Except FileError String :=
  match String.fromUTF8? bytes with
  | some text => .ok text
  | none => .error .notText

def readFile (path : String) : IO (Except FileError String) := do
  match ← (IO.FS.readBinFile path).toBaseIO with
  | .ok bytes => return textOf bytes
  | .error error => return .error (fileError error)

def readInputStream : IO (Except FileError String) := do
  match ← (do (← IO.getStdin).readBinToEnd : IO ByteArray).toBaseIO with
  | .ok bytes => return textOf bytes
  | .error error => return .error (fileError error)

def configHome : IO (Option String) := do
  match ← IO.getEnv "XDG_CONFIG_HOME" with
  | some path => if path.startsWith "/" then return some path else underHome
  | none => underHome
where
  underHome : IO (Option String) := do
    return (← IO.getEnv "HOME").map (· ++ "/.config")

/-- Whether to show colours: the environment may ask for them or refuse them. -/
def wantsColor : IO Bool := do
  if ((← IO.getEnv "CLICOLOR_FORCE").getD "0") ≠ "0" then return true
  if (← IO.getEnv "NO_COLOR").isSome then return false
  if ((← IO.getEnv "CLICOLOR").getD "1") = "0" then return false
  (← IO.getStdout).isTty

/-- The files that a run can ask for. -/
def Invocation.files (invocation : Invocation) (home : Option String) : List String :=
  invocation.file.toList ++
    match invocation.config with
    | some path => [path]
    | none => (home.map Config.pathIn).toList

def Invocation.wantsInput (invocation : Invocation) : Bool :=
  invocation.command.takesFile && invocation.file.isNone

/-- The outcome of the program for its arguments and its surroundings. -/
def outcome (arguments : List String) : IO Outcome := do
  let configFile ← IO.getEnv "APIQ_CONFIG"
  let home ← configHome
  let colored ← wantsColor
  let invocation := (CommandLine.read configFile arguments).toOption
  let paths := (invocation.map (·.files home)).getD []
  let contents ← paths.mapM fun path => return (path, ← readFile path)
  let input ←
    if invocation.any (·.wantsInput) then readInputStream else pure (.ok "")
  let read := fun path => (contents.lookup path).getD (.error .notFound)
  -- Which events are shown is left to the arguments.
  return run ⟨read, input, configFile, home, colored, none⟩ arguments

end ResourceQuery.CommandLine

def main (arguments : List String) : IO UInt32 := do
  let outcome ← ResourceQuery.CommandLine.outcome arguments
  (← IO.getStdout).putStr outcome.stdout
  for notice in outcome.stderr do (← IO.getStderr).putStrLn notice.text
  return outcome.exit
