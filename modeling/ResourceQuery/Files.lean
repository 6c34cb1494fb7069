/-!
# Files

A tree of text files, and the rule by which a path names one of them. A path is a row of steps with
slashes between them; it starts at the top if a slash comes first and at the working directory
otherwise. Directories are not listed: a directory is there when it is on the way to a file or to
the working directory.
-/

set_option autoImplicit false

namespace ResourceQuery

/-- Why a file cannot be read. -/
inductive FileError
  | notFound
  | isDirectory
  | notDirectory
  | nameTooLong
  | notText
  /-- Anything else that the system reports. -/
  | other (text : String)
  deriving DecidableEq, Repr

def FileError.message : FileError → String
  | .notFound => "No such file or directory (os error 2)"
  | .isDirectory => "Is a directory (os error 21)"
  | .notDirectory => "Not a directory (os error 20)"
  | .nameTooLong => "File name too long (os error 36)"
  | .notText => "stream did not contain valid UTF-8"
  | .other text => text

/-- The answer to reading a path tells whether a file is there. -/
def FileError.isAbsence : FileError → Bool
  | .notText => false
  | .other _ => false
  | _ => true

/-- Whether a path that was read names a file. -/
def namesFile : Except FileError String → Bool
  | .ok _ => true
  | .error error => !error.isAbsence

/-- A tree of text files: their contents by their steps from the top, and the working directory. -/
structure Files where
  contents : List (List String × String)
  here : List String

namespace Files

def pathBound : Nat := 4096

def longestStep : Nat := 255

def splitSlashes : List Char → List (List Char)
  | [] => [[]]
  | c :: rest =>
    if c = '/' then [] :: splitSlashes rest
    else
      match splitSlashes rest with
      | [] => [[c]]
      | step :: others => (c :: step) :: others

def stepsOf (path : String) : List String := (splitSlashes path.toList).map String.ofList

def content? (files : Files) (steps : List String) : Option String := files.contents.lookup steps

def isDirectory (files : Files) (steps : List String) : Bool :=
  (files.content? steps).isNone
    && (steps.isPrefixOf files.here || files.contents.any fun file => steps.isPrefixOf file.1)

def isThere (files : Files) (steps : List String) : Bool :=
  (files.content? steps).isSome || files.isDirectory steps

/-- Follows steps from a place. Every step has to start from a directory and to lead somewhere. -/
def follow (files : Files) (place : List String) : List String → Except FileError (List String)
  | [] => .ok place
  | step :: rest =>
    if !files.isDirectory place then .error .notDirectory
    else if step = "" ∨ step = "." then files.follow place rest
    else if step = ".." then files.follow place.dropLast rest
    else if step.utf8ByteSize > longestStep then .error .nameTooLong
    else if files.isThere (place ++ [step]) then files.follow (place ++ [step]) rest
    else .error .notFound

def locate (files : Files) (path : String) : Except FileError (List String) :=
  if path.isEmpty then .error .notFound
  else if path.utf8ByteSize ≥ pathBound then .error .nameTooLong
  else files.follow (if path.front = '/' then [] else files.here) (stepsOf path)

def read (files : Files) (path : String) : Except FileError String := do
  let place ← files.locate path
  match files.content? place with
  | some content => return content
  | none => throw .isDirectory

end Files

end ResourceQuery
