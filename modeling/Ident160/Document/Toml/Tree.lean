import Ident160.Document.Value

/-!
The tables of a TOML document while it is read. A table remembers how it came to be, because that
decides who may add to it: a header may name a table once, and may open one that so far was only
passed through; a dotted key may add to tables that dotted keys made, and may pass through those
that headers passed through. A table that is written as a value is closed.
-/

namespace Ident160.Document.Toml

inductive Origin where
  /-- A header names it, or it is the document itself. -/
  | named
  /-- A header passes through it. -/
  | passed
  /-- A dotted key passes through it. -/
  | dotted
deriving DecidableEq

inductive Tree where
  | leaf (v : Value)
  | table (origin : Origin) (entries : List (String × Tree))
  /-- The tables under a header in double brackets: the latest, and those before it from the
  latest back. -/
  | tables (latest : List (String × Tree)) (earlier : List (List (String × Tree)))

abbrev Branches := List (String × Tree)

namespace Tree

mutual

def value : Tree → Value
  | .leaf v => v
  | .table _ entries => .table (values entries)
  | .tables latest earlier => .array (tableValues earlier [.table (values latest)])

def values : List (String × Tree) → Entries
  | [] => []
  | (name, tree) :: entries => (name, tree.value) :: values entries

/-- The values of tables that are listed from the latest back, in front of those after them. -/
def tableValues : List (List (String × Tree)) → List Value → List Value
  | [], after => after
  | entries :: earlier, after => tableValues earlier (.table (values entries) :: after)

end

def alter? (name : String) (f : Option Tree → Option Tree) : Branches → Option Branches
  | [] => (f none).map fun tree => [(name, tree)]
  | (key, tree) :: entries =>
    if key = name then (f (some tree)).map fun tree => (key, tree) :: entries
    else (alter? name f entries).map fun entries => (key, tree) :: entries

def openTable : Option Tree → Option Tree
  | none => some (.table .named [])
  | some (.table .passed entries) => some (.table .named entries)
  | some _ => none

def openItem : Option Tree → Option Tree
  | none => some (.tables [] [])
  | some (.tables latest earlier) => some (.tables [] (latest :: earlier))
  | some _ => none

def alongHeader (f : Option Tree → Option Tree) : List String → Branches → Option Branches
  | [], entries => some entries
  | [name], entries => alter? name f entries
  | name :: path, entries =>
    alter? name (fun
      | none => (alongHeader f path []).map (.table .passed)
      | some (.table origin entries) => (alongHeader f path entries).map (.table origin)
      | some (.tables latest earlier) =>
        (alongHeader f path latest).map fun latest => .tables latest earlier
      | some (.leaf _) => none) entries

/-- Puts a value at the end of a dotted key. `origin` is that of the table that holds the
entries; a key of more than one part must end in a table that dotted keys made. -/
def putDotted (v : Value) : Origin → Bool → List String → Branches → Option Branches
  | _, _, [], _ => none
  | origin, inside, [name], entries =>
    if decide (origin = .dotted) == inside then
      alter? name (fun
        | none => some (.leaf v)
        | some _ => none) entries
    else
      none
  | _, _, name :: path, entries =>
    alter? name (fun
      | none => (putDotted v .dotted true path []).map (.table .dotted)
      | some (.table .named _) => none
      | some (.table origin entries) =>
        (putDotted v origin true path entries).map (.table origin)
      | some (.tables latest earlier) =>
        (putDotted v .named true path latest).map fun latest => .tables latest earlier
      | some (.leaf _) => none) entries

/-- Follows the path of the header in force to the table that it opened, and puts a value there.
-/
def putUnder (key : List String) (v : Value) : List String → Origin → Branches → Option Branches
  | [], origin, entries => putDotted v origin false key entries
  | name :: path, _, entries =>
    alter? name (fun
      | some (.table origin entries) => (putUnder key v path origin entries).map (.table origin)
      | some (.tables latest earlier) =>
        (putUnder key v path .named latest).map fun latest => .tables latest earlier
      | _ => none) entries

end Tree

inductive Statement where
  | header (path : List String)
  | itemHeader (path : List String)
  | assignment (key : List String) (v : Value)

structure Reading where
  entries : Branches := []
  header : List String := []

def Reading.step (r : Reading) : Statement → Option Reading
  | .header path => (Tree.alongHeader Tree.openTable path r.entries).map fun es => ⟨es, path⟩
  | .itemHeader path => (Tree.alongHeader Tree.openItem path r.entries).map fun es => ⟨es, path⟩
  | .assignment key v =>
    (Tree.putUnder key v r.header .named r.entries).map fun es => ⟨es, r.header⟩

def entriesOf (statements : List Statement) : Option Entries :=
  (statements.foldlM Reading.step {}).map fun r => Tree.values r.entries

end Ident160.Document.Toml
