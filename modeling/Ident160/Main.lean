import Ident160.Command.Run
import Ident160.Host.Account

/-!
The program. It takes a picture of its surroundings, as far as the command line leads to them,
lets `run` work out what happens, and then makes it happen: first the changed files, then the
output. If the output is refused, the outcome for that kind of refusal counts.
-/

namespace Ident160

/-- The text of bytes. What is not UTF-8 becomes a text that is no document. -/
def textOfBytes (bytes : ByteArray) : String := (String.fromUTF8? bytes).getD "\uFFFD"

/-- The text of a file of the system, empty if it cannot be read. -/
def readWhole (path : String) : IO String := do
  try
    return textOfBytes (← IO.FS.readBinFile path)
  catch _ =>
    return ""

def ownVariables : IO (List (String × String)) := do
  let text ← readWhole "/proc/self/environ"
  return (Account.fields (· = '\x00') text.toList).filterMap fun entry =>
    match entry.dropWhile (· ≠ '=') with
    | _ :: value => some (String.ofList (entry.takeWhile (· ≠ '=')), String.ofList value)
    | [] => none

def nodeAt (location : Location) : IO (Option FileNode) := do
  let path := "/" ++ String.intercalate "/" location
  try
    match (← ((← IO.currentDir) / path).metadata).type with
    | .dir => return some .directory
    | .file => return some (.file (textOfBytes (← IO.FS.readBinFile path)))
    | _ => return some .special
  catch _ =>
    return none

def observe (tree : FileTree) (start : Location) : List String → IO FileTree
  | [] => return tree
  | part :: parts => do
    let next := FileTree.follow start part
    match ← nodeAt next with
    | none => return tree
    | some node => observe (tree.put next node) next parts

/-- Adds to a host what a path leads to, under its own name and those with an extension more. -/
def Host.observe (host : Host) (path : String) : IO Host := do
  let parts := host.partsFromRoot path
  let others := Loader.plain.tries.filterMap fun (_, extension) =>
    (Path.lastName? parts).map fun name => parts.dropLast ++ [name ++ "." ++ extension]
  let mut files ← Ident160.observe host.files [] parts
  for other in others do
    files ← Ident160.observe files [] other
  return { host with files := files }

/-- The surroundings of this process, as far as a path of the command line or a usual place of
settings leads to them. -/
def ownHost (chosen : Option String) : IO Host := do
  let status ← readWhole "/proc/self/status"
  let accounts ← readWhole "/etc/passwd"
  let mut host : Host :=
    { environment := ← ownVariables
      accountHome := (Account.number? status).bind fun number => Account.home? number accounts
      workingDirectory := Path.parts (← IO.currentDir).toString }
  host ← host.observe (← IO.currentDir).toString
  host ← host.observe Host.systemFile
  if let some path := host.userFile? then
    host ← host.observe path
  if let some path := chosen then
    host ← host.observe path
  return host

/-- Makes the files on disk those of `after`, where they are not those of `before`. -/
def makeChanges (before after : Host) : IO Unit := do
  for (location, node) in after.files.nodes.reverse do
    if before.files.get? location ≠ some node then
      let path := "/" ++ String.intercalate "/" location
      match node with
      | .directory => IO.FS.createDirAll path
      | .file text => IO.FS.writeFile path text
      | .special => pure ()

/-- The sink of an error with a code and its words. Interruptions do not last. -/
def sinkOfCode (code : UInt32) (words : String) : Sink :=
  if lasting : code.toNat ≠ 4 then .failing ⟨code.toNat, words, lasting⟩ else .working

def sinkOfError (e : IO.Error) : Sink :=
  match e with
  | .resourceVanished code words | .resourceExhausted _ code words
  | .hardwareFault code words | .permissionDenied _ code words
  | .otherError code words => sinkOfCode code words
  | e => sinkOfCode 5 e.toString

def freshKey : IO ChaCha.Key := do
  let words := Ident.wordsOfBytes (← IO.getRandomBytes 32).toList
  return Vector.ofFn fun i => words.getD i.val 0

end Ident160

open Ident160

def main (args : List String) : IO UInt32 := do
  let chosen :=
    match Line.read args with
    | .ok invocation => invocation.configPath
    | .error _ => none
  let host ← ownHost chosen
  let key ← freshKey
  let outcome := run .plain host key .working args
  try
    makeChanges host outcome.host
  catch e =>
    IO.eprint ("Error: Error writing configuration: " ++ e.toString ++ "\n")
    return 1
  let outcome ←
    try
      let out ← IO.getStdout
      out.putStr outcome.written
      out.flush
      pure outcome
    catch e =>
      pure (run .plain host key (sinkOfError e) args)
  IO.eprint outcome.errorWritten
  return UInt32.ofNat outcome.ending.exitCode
