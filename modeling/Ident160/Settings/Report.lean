import Ident160.Settings.Location

/-!
The report on where settings come from: the files, whether each is there, and the variables. If a
file has been chosen it is the only one that counts, and the report has nothing else.
-/

namespace Ident160.Host

def fileLines (host : Host) (label path missing : String) : String :=
  label ++ ": " ++ path ++ "\n  Status: " ++
    (if host.pathExists path then "✓ Found" else missing) ++ "\n"

def variableLines : String :=
  "\nEnvironment variables:\n  UINT160_PRINTER_DISPLAY__UPPERCASE\n" ++
    "  UINT160_PRINTER_DISPLAY__SHOW_LIMBS\n  UINT160_PRINTER_RANDOM__SEED\n"

def reportTitle : String :=
  "uint160-printer configuration\n=============================\n"

def defaultLines (host : Host) : String :=
  let missing := "✗ Not found (will use defaults)"
  let user :=
    match host.userFile? with
    | some path => host.fileLines "User config file" path missing
    | none => ""
  user ++ host.fileLines "System config file" systemFile missing ++ variableLines

def settingsReport (host : Host) (chosen : Option String) : String :=
  reportTitle ++
    match chosen with
    | some path => host.fileLines "Config file (--config)" path "✗ Not found"
    | none => host.defaultLines

end Ident160.Host
