/-!
Paths to files, as texts with slashes. Empty parts and single dots between slashes say nothing,
except at the very end, where they ask for a directory. Two dots lead back out of a directory,
and count as a part.
-/

namespace Ident160.Path

def isAbsolute (path : String) : Bool := path.toList.head? = some '/'

/-- A path that is read from a directory on; an absolute one stands for itself. -/
def join (directory path : String) : String :=
  if isAbsolute path then path
  else if directory.isEmpty || directory.toList.getLast? = some '/' then directory ++ path
  else directory ++ "/" ++ path

def slashParts : List Char → List (List Char)
  | [] => [[]]
  | c :: cs =>
    match slashParts cs with
    | [] => []
    | part :: parts => if c = '/' then [] :: part :: parts else (c :: part) :: parts

def parts (path : String) : List String :=
  ((slashParts path.toList).filter fun part => !part.isEmpty && part ≠ ['.']).map String.ofList

/-- Whether a path can only lead to a directory by the way it ends. -/
def asksForDirectory (path : String) : Bool :=
  match (slashParts path.toList).getLast? with
  | some part => part.isEmpty || part = ['.']
  | none => true

/-- The name that parts end with, unless they lead back out. -/
def lastName? (parts : List String) : Option String :=
  match parts.getLast? with
  | some name => if name = ".." then none else some name
  | none => none

def fileName? (path : String) : Option String := lastName? (parts path)

/-- What stands behind the last dot of a name, if it has one behind its first character. -/
def extensionOf (name : String) : Option String :=
  let behind := name.toList.reverse.takeWhile (· ≠ '.')
  if behind.length + 1 < name.toList.length then some (String.ofList behind.reverse) else none

def extension? (path : String) : Option String := (fileName? path).bind extensionOf

end Ident160.Path
