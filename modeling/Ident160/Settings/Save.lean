import Ident160.Digit
import Ident160.Settings.Basic
import Ident160.Settings.Location

/-!
Writing settings. The file has a section for each group of settings and a line for each setting
in force; a seed that is not set has no line.
-/

namespace Ident160

namespace Settings

def truthText : Bool → String
  | true => "true"
  | false => "false"

def seedLine : Option UInt64 → String
  | some seed => "seed = " ++ Digit.decimalText seed.toNat ++ "\n"
  | none => ""

def fileText (s : Settings) : String :=
  "[display]\nuppercase = " ++ truthText s.display.uppercase ++ "\nshow_limbs = " ++
    truthText s.display.showLimbs ++ "\n\n[random]\n" ++ seedLine s.random.seed

end Settings

inductive SaveFault where
  | noPlace
  | refused (fault : FileFault)
deriving DecidableEq

def SaveFault.message : SaveFault → String
  | .noPlace => "Could not determine user config directory"
  | .refused fault => fault.message

namespace Host

def writeDefaults (host : Host) (directory name : String) : Except (SaveFault × Host) Host :=
  (host.write directory name ({} : Settings).fileText).mapError fun (fault, left) =>
    (.refused fault, left)

/-- Writes the default settings to the user's file: its path, and what is changed by it. -/
def createUserFile (host : Host) : Except (SaveFault × Host) (String × Host) :=
  match host.userDirectory? with
  | none => .error (.noPlace, host)
  | some directory =>
    (host.writeDefaults directory settingsFile).map fun changed =>
      (Path.join directory settingsFile, changed)

end Host

end Ident160
