import Ident160.Host.FileTree
import Ident160.Host.Path

/-!
What surrounds a run of the program: the environment variables, the home directory of the
account, the working directory, and the files.
-/

namespace Ident160

structure Host where
  /-- Variables with their texts, in the order in which they are laid over other settings. Nothing
  is said about this order. -/
  environment : List (String × String) := []
  /-- The home directory that the account has if no variable names one. -/
  accountHome : Option String := none
  workingDirectory : Location := []
  files : FileTree := {}
deriving DecidableEq

namespace Host

def lookupVariable (host : Host) (name : String) : Option String := host.environment.lookup name

def startOf (host : Host) (path : String) : Location :=
  if Path.isAbsolute path then [] else host.workingDirectory

/-- What a path leads to. An empty path leads nowhere. -/
def find (host : Host) (path : String) : Option FileNode :=
  if path.isEmpty then none
  else
    match host.files.locate (host.startOf path) (Path.parts path) with
    | none => none
    | some location =>
      match host.files.get? location with
      | some .directory => some .directory
      | node => if Path.asksForDirectory path then none else node

def pathExists (host : Host) (path : String) : Bool := (host.find path).isSome

def text? (host : Host) (path : String) : Option String :=
  match host.find path with
  | some (.file text) => some text
  | _ => none

/-- The parts of a path from the root on. Those of a relative path go on from the working
directory, and so an empty path ends with its name. -/
def partsFromRoot (host : Host) (path : String) : List String :=
  host.startOf path ++ Path.parts path

/-- The text of the file beside what a path names, with something appended to the name. -/
def appendedText? (host : Host) (path appended : String) : Option String := do
  let parts := host.partsFromRoot path
  let name ← Path.lastName? parts
  match host.files.get? (← host.files.locate [] (parts.dropLast ++ [name ++ appended])) with
  | some (.file text) => some text
  | _ => none

/-- Writes a file into a directory, both given by their names, and makes the directory first if
it is missing. A fault comes with the host as it is left. -/
def write (host : Host) (directory name text : String) : Except (FileFault × Host) Host :=
  let start := host.startOf directory
  let parts := Path.parts directory
  match host.files.makeDirectories start false parts with
  | .error (fault, files) => .error (fault, { host with files })
  | .ok files =>
    match files.locate start (parts ++ [name]) with
    | none => .error (.notFound, { host with files })
    | some location =>
      match files.writeAt location text with
      | .error fault => .error (fault, { host with files })
      | .ok written => .ok { host with files := written }

end Host

end Ident160
