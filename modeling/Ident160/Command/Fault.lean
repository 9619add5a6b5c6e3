import Ident160.Command.Basic
import Ident160.Command.Console
import Ident160.Inspector
import Ident160.Settings.Decode
import Ident160.Settings.Save

/-!
How a run can end. A fault is told behind a word for what failed; a crash ends the program in the
midst of its work. Texts that come from outside the program are no part of its faults, but for the
one that tells why no settings have been loaded.
-/

namespace Ident160

inductive RunFault where
  | output (e : SystemError)
  | help (e : SystemError)
  /-- The settings do not load, with what is told about it. -/
  | settings (fault : SettingsFault) (told : String)
  | saving (fault : SaveFault)
  | limbs (e : RenderError)
  | identifier (text : String) (e : Ident.ReadError)
deriving DecidableEq

def RunFault.message : RunFault → String
  | .output e => "Error writing output: " ++ e.message
  | .help e => e.message
  | .settings _ told => "Error loading configuration: " ++ told
  | .saving fault => "Error writing configuration: " ++ fault.message
  | .limbs e => "Error formatting limbs: " ++ e.message
  | .identifier text e =>
    "Error parsing identifier " ++ Text.quoteText text ++ ": " ++ e.message

inductive Crash where
  | report (e : SystemError)
  /-- A description has digits that cannot be cut. -/
  | description
  /-- The settings have a list that is longer than lists can be. -/
  | overlong
deriving DecidableEq

/-- How a run is stopped before its work is done. -/
inductive Stop where
  | failed (fault : RunFault)
  | crashed (crash : Crash)
deriving DecidableEq

inductive Ending where
  | done
  | failed (fault : RunFault)
  | crashed (crash : Crash)
  /-- The command line is not carried out. -/
  | refused (fault : UsageFault)
deriving DecidableEq

def Ending.exitCode : Ending → Nat
  | .done => 0
  | .failed _ => 1
  | .crashed _ => 101
  | .refused fault => fault.exitCode

def Stop.ending : Stop → Ending
  | .failed fault => .failed fault
  | .crashed crash => .crashed crash

end Ident160
