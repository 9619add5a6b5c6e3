import Ident160.Settings.Decode
import Ident160.Settings.Loader
import Ident160.Settings.Location
import Ident160.Settings.Variables

/-!
Loading settings. Without a file of the user's choice, the settings of the system, of the user
and of the environment are laid over the defaults in this order; a chosen file stands alone over
the defaults. A path names a file exactly, or leaves out the last extension of its name.
-/

namespace Ident160

open Document (Entries)

namespace Host

def dropMark (text : String) : String :=
  match text.toList with
  | '\uFEFF' :: cs => String.ofList cs
  | _ => text

/-- The document that a path names: a file of exactly this path, or else the first file whose
name has one more extension. A file with an extension of its own that is no format is none. -/
def document? (host : Host) (loader : Loader) (path : String) : Option (DocumentFormat × String) :=
  match host.text? path with
  | some text => do
    let format ← loader.ofExtension? (← Path.extension? path)
    return (format, dropMark text)
  | none => loader.tries.findSome? fun (format, extension) =>
    (host.appendedText? path ("." ++ extension)).map fun text => (format, dropMark text)

def readDocument (found : DocumentFormat × String) : Except SettingsFault Entries :=
  match found.1.read found.2 with
  | some entries => .ok entries
  | none => .error .malformed

def requiredEntries (host : Host) (loader : Loader) (path : String) :
    Except SettingsFault Entries :=
  match host.document? loader path with
  | some found => readDocument found
  | none => .error .noDocument

/-- The entries of a document that may be missing. -/
def optionalEntries (host : Host) (loader : Loader) (path : String) :
    Except SettingsFault Entries :=
  if host.pathExists path then
    match host.document? loader path with
    | some found => readDocument found
    | none => .ok []
  else
    .ok []

def loadFrom (host : Host) (loader : Loader) (path : String) : Except SettingsFault Settings :=
  Settings.ofLayers loader.capacity [host.requiredEntries loader path]

def userEntries (host : Host) (loader : Loader) : Except SettingsFault Entries :=
  match host.userFile? with
  | some path => host.optionalEntries loader path
  | none => .ok []

/-- What is laid over the defaults without a chosen file, in this order. -/
def layers (host : Host) (loader : Loader) : List (Except SettingsFault Entries) :=
  [host.optionalEntries loader systemFile, host.userEntries loader,
    .ok (Variables.entries host.environment)]

def load (host : Host) (loader : Loader) : Except SettingsFault Settings :=
  Settings.ofLayers loader.capacity (host.layers loader)

def filesRead (host : Host) : List String :=
  (systemFile :: host.userFile?.toList).filter host.pathExists

end Host

end Ident160
