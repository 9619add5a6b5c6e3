import Ident160.Numeral

/-!
What a build knows about itself, and what it tells. A build is for development if its sources had
changes, if it was made without optimisation, or if commits were made since the last tag.
-/

namespace Ident160

structure Release where
  version : String
  commitHash : Option String := none
  commitHashShort : Option String := none
  /-- The last tag, with the number of commits since it and the commit's hash if there are any. -/
  gitVersion : Option String := none
  isDirty : Bool := false
  target : String
  profile : String
  compiler : String

namespace Release

def dashParts : List Char → List (List Char)
  | [] => [[]]
  | c :: cs =>
    match dashParts cs with
    | [] => []
    | part :: parts => if c = '-' then [] :: part :: parts else (c :: part) :: parts

/-- The part between the last two dashes, if there are two. -/
def countPart (text : List Char) : Option (List Char) :=
  match (dashParts text).reverse with
  | _hash :: count :: _ :: _ => some count
  | _ => none

def commitsSinceTag (r : Release) : Option UInt32 := do
  let text ← r.gitVersion
  let count ← countPart text.toList
  (Numeral.readWord 10 count).toOption

def isDevelopment (r : Release) : Bool :=
  r.isDirty || r.profile = "debug" || r.commitsSinceTag.any (0 < ·)

/-- What marks a development build: count, hash and state of its sources, as far as known. -/
def marks (r : Release) : List String :=
  (r.commitsSinceTag.map fun n => Digit.decimalText n.toNat).toList ++ r.commitHashShort.toList ++
    if r.isDirty then ["dirty"] else []

def short (r : Release) : String :=
  if r.isDevelopment then
    match r.marks with
    | [] => "v" ++ r.version ++ "-dev"
    | marks => "v" ++ r.version ++ "-dev+" ++ ".".intercalate marks
  else
    "v" ++ r.version

def line (label value : String) : String := label ++ ": " ++ value ++ "\n"

def details (r : Release) : String :=
  String.join
    ((r.gitVersion.map (line "Git version notation")).toList ++
      (r.commitHash.map (line "Commit hash")).toList ++
      (r.commitsSinceTag.map fun n =>
        line "Commits since last tag" (Digit.decimalText n.toNat)).toList ++
      (if r.isDirty then [line "Working directory" "dirty"] else []) ++
      [line "Profile" r.profile, line "Target" r.target, line "Rust" r.compiler])

def report (r : Release) : String :=
  "uint160-printer\n\nVersion: " ++ r.short ++ "\n" ++ if r.isDevelopment then r.details else ""

def current : Release where
  version := "0.1.0"
  target := "x86_64-unknown-linux-gnu"
  profile := "release"
  compiler := "lean"

end Release

end Ident160
