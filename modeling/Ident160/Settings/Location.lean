import Ident160.Host.Basic

/-!
Where settings are kept: the user's file under the configuration directory of the desktop, which
an absolute path in a variable may name and which else is in the home directory, and one file for
the whole system.
-/

namespace Ident160.Host

def settingsDirectory : String := "uint160-printer"

def settingsFile : String := "config.toml"

/-- The home directory: the one a variable names, if it is not empty, or the account's. -/
def homeDirectory? (host : Host) : Option String :=
  match host.lookupVariable "HOME" with
  | some home => if home.isEmpty then host.accountHome else some home
  | none => host.accountHome

def configDirectory? (host : Host) : Option String :=
  host.homeDirectory?.map fun home =>
    match host.lookupVariable "XDG_CONFIG_HOME" with
    | some directory => if Path.isAbsolute directory then directory else Path.join home ".config"
    | none => Path.join home ".config"

def userDirectory? (host : Host) : Option String :=
  host.configDirectory?.map fun directory => Path.join directory settingsDirectory

def userFile? (host : Host) : Option String :=
  host.userDirectory?.map fun directory => Path.join directory settingsFile

def systemFile : String := "/etc/uint160-printer/config.toml"

end Ident160.Host
