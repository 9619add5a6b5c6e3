/-!
The files and directories that a program can see. A location is the list of names that leads to
it from the root. Finding a location by the parts of a path needs a directory at every part but
the last, and a part of two dots leads back out of one. Looking up what was just put somewhere
gives it back, and leaves every other location alone.
-/

namespace Ident160

abbrev Location := List String

inductive FileNode where
  | directory
  | file (text : String)
  /-- Neither a directory nor a regular file, such as a device. -/
  | special
deriving DecidableEq

inductive FileFault where
  | notFound
  | alreadyExists
  | notADirectory
  | isADirectory
deriving DecidableEq

def FileFault.message : FileFault → String
  | .notFound => "No such file or directory (os error 2)"
  | .alreadyExists => "File exists (os error 17)"
  | .notADirectory => "Not a directory (os error 20)"
  | .isADirectory => "Is a directory (os error 21)"

/-- Files and directories by their locations, latest first. -/
structure FileTree where
  nodes : List (Location × FileNode) := []
deriving DecidableEq

namespace FileTree

/-- What stands at a location. The root is always a directory. -/
def get? (tree : FileTree) (location : Location) : Option FileNode :=
  if location = [] then some .directory else tree.nodes.lookup location

def put (tree : FileTree) (location : Location) (node : FileNode) : FileTree :=
  ⟨(location, node) :: tree.nodes.filter fun entry => decide (entry.1 ≠ location)⟩

theorem get?_put_self (tree : FileTree) (location : Location) (node : FileNode)
    (h : location ≠ []) : (tree.put location node).get? location = some node := by
  simp [get?, put, h]

theorem get?_put_of_ne (tree : FileTree) {location other : Location} (node : FileNode)
    (h : other ≠ location) : (tree.put location node).get? other = tree.get? other := by
  unfold get? put
  split
  · rfl
  · have hne : (other == location) = false := by simpa using h
    simp only [List.lookup_cons, hne]
    induction tree.nodes with
    | nil => rfl
    | cons entry nodes ih =>
      by_cases hkeep : entry.1 = location
      · have hskip : (other == entry.1) = false := by rw [hkeep]; exact hne
        obtain ⟨key, value⟩ := entry
        simp only at hkeep hskip
        simp only [List.filter_cons, hkeep, ne_eq, not_true, decide_false, Bool.false_eq_true,
          if_false, List.lookup_cons, ih]
        rw [hkeep] at hskip
        simp only [hskip]
      · obtain ⟨key, value⟩ := entry
        simp only at hkeep
        simp only [List.filter_cons, ne_eq, hkeep, not_false_iff, decide_true, if_true,
          List.lookup_cons]
        split <;> simp_all

def follow (location : Location) (part : String) : Location :=
  if part = ".." then location.dropLast else location ++ [part]

/-- The location that parts lead to from `start`. Nothing need stand there. -/
def locate (tree : FileTree) (start : Location) : List String → Option Location
  | [] => some start
  | part :: parts =>
    if tree.get? start = some .directory then tree.locate (follow start part) parts else none

/-- Makes the directories that parts lead through from `start`, as far as they are missing.
`making` tells that some have been made already. A fault comes with the tree as it is left: what
has been made stays. -/
def makeDirectories (tree : FileTree) (start : Location) (making : Bool) :
    List String → Except (FileFault × FileTree) FileTree
  | [] => .ok tree
  | part :: parts =>
    let next := follow start part
    match tree.get? next with
    | some .directory => tree.makeDirectories next making parts
    | some _ =>
      -- The whole path is tried first, and its parts one by one only if something is missing.
      .error (if making || parts.isEmpty then .alreadyExists else .notADirectory, tree)
    | none => (tree.put next .directory).makeDirectories next true parts

/-- Writes a file at a location. What stands there may only be a file. -/
def writeAt (tree : FileTree) (location : Location) (text : String) :
    Except FileFault FileTree :=
  match tree.get? location with
  | some .directory => .error .isADirectory
  | some .special => .ok tree
  | _ => .ok (tree.put location (.file text))

end FileTree

end Ident160
