import Ident160.Document.Toml.Scalar
import Ident160.Document.Toml.Text
import Ident160.Document.Toml.Tree

/-!
Reading TOML documents. A document is a sequence of lines, each a header, an assignment or
nothing; values may go on over several lines inside brackets and braces. The lines are read
first, and what they make together is for `entriesOf` to say.
-/

namespace Ident160.Document.Toml

def skipSpaces (cs : List Char) : List Char := cs.dropWhile isSpace

def skipComment : List Char → List Char
  | '#' :: cs => cs.dropWhile isTextChar
  | cs => cs

def takeLineEnd (cs : List Char) : Option (List Char) :=
  match skipComment (skipSpaces cs) with
  | [] => some []
  | rest => takeNewline rest

/-- The text behind blanks, comments and ends of lines. `fuel` bounds the lines. -/
def skipGaps : Nat → List Char → List Char
  | 0, cs => cs
  | fuel + 1, cs =>
    let rest := skipComment (skipSpaces cs)
    match takeNewline rest with
    | some next => skipGaps fuel next
    | none => rest

def isBareChar (c : Char) : Bool := c.isAlphanum || c = '_' || c = '-'

def takeKeyPart (cs : List Char) : Option (String × List Char) :=
  match cs.takeWhile isBareChar with
  | [] => (takeShortText cs).map fun (text, rest) => (String.ofList text, rest)
  | part => some (String.ofList part, cs.dropWhile isBareChar)

def takeKey : Nat → List Char → Option (List String × List Char)
  | 0, _ => none
  | fuel + 1, cs => do
    let (part, rest) ← takeKeyPart cs
    match skipSpaces rest with
    | '.' :: more => (takeKey fuel (skipSpaces more)).map fun (parts, rest) => (part :: parts, rest)
    | rest => some ([part], rest)

def takeKeyEquals (cs : List Char) : Option (List String × List Char) := do
  let (key, rest) ← takeKey cs.length cs
  let rest ← takeChar '=' rest
  return (key, skipSpaces rest)

def inlineTable (assignments : List (List String × Value)) : Option Value :=
  (entriesOf (assignments.map fun (key, v) => .assignment key v)).map .table

mutual

/-- Takes a value with at most `depth` brackets and braces around its parts. -/
def takeValue : Nat → Nat → List Char → Option (Value × List Char)
  | 0, _, _ => none
  | fuel + 1, depth, cs =>
    match cs with
    | '[' :: rest =>
      match depth with
      | 0 => none
      | depth + 1 =>
        (takeItems fuel depth rest).map fun (items, rest) => (.array items, rest)
    | '\x7b' :: rest =>
      match depth with
      | 0 => none
      | depth + 1 => do
        let (assignments, rest) ← takeAssignments fuel depth rest
        let v ← inlineTable assignments
        return (v, rest)
    | '"' :: _ | '\'' :: _ =>
      (takeText cs).map fun (text, rest) => (.text (String.ofList text), rest)
    | _ => takeAtom cs

def takeItems : Nat → Nat → List Char → Option (List Value × List Char)
  | 0, _, _ => none
  | fuel + 1, depth, cs =>
    match skipGaps cs.length cs with
    | ']' :: rest => some ([], rest)
    | cs => do
      let (v, rest) ← takeValue fuel depth cs
      match skipGaps rest.length rest with
      | ',' :: rest => (takeItems fuel depth rest).map fun (items, rest) => (v :: items, rest)
      | ']' :: rest => some ([v], rest)
      | _ => none

def takeAssignments : Nat → Nat → List Char → Option (List (List String × Value) × List Char)
  | 0, _, _ => none
  | fuel + 1, depth, cs =>
    match skipGaps cs.length cs with
    | '\x7d' :: rest => some ([], rest)
    | cs => do
      let (key, rest) ← takeKeyEquals cs
      let (v, rest) ← takeValue fuel depth rest
      match skipGaps rest.length rest with
      | ',' :: rest =>
        (takeAssignments fuel depth rest).map fun (more, rest) => ((key, v) :: more, rest)
      | '\x7d' :: rest => some ([(key, v)], rest)
      | _ => none

end

def maxDepth : Nat := 80

def takeHeader (closing : List Char) (cs : List Char) : Option (List String × List Char) := do
  let (path, rest) ← takeKey cs.length (skipSpaces cs)
  let rest ← closing.foldlM (fun rest c => takeChar c rest) rest
  let rest ← takeLineEnd rest
  return (path, rest)

def takeAssignment (cs : List Char) : Option (Statement × List Char) := do
  let (key, rest) ← takeKeyEquals cs
  let (v, rest) ← takeValue (2 * rest.length + 2) maxDepth rest
  let rest ← takeLineEnd rest
  return (.assignment key v, rest)

/-- Reads lines to the end of the document. `fuel` bounds their number. -/
def readLines : Nat → List Char → Option (List Statement)
  | _, [] => some []
  | 0, _ => none
  | fuel + 1, cs =>
    match skipSpaces cs with
    | '[' :: '[' :: rest => do
      let (path, rest) ← takeHeader [']', ']'] rest
      return .itemHeader path :: (← readLines fuel rest)
    | '[' :: rest => do
      let (path, rest) ← takeHeader [']'] rest
      return .header path :: (← readLines fuel rest)
    | rest =>
      match takeLineEnd rest with
      | some rest => readLines fuel rest
      | none => do
        let (statement, rest) ← takeAssignment rest
        return statement :: (← readLines fuel rest)

def skipMark : List Char → List Char
  | '\uFEFF' :: cs => cs
  | cs => cs

def read (text : String) : Option Entries := do
  let cs := skipMark text.toList
  entriesOf (← readLines (cs.length + 1) cs)

end Ident160.Document.Toml
