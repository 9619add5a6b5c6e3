import Ident160.Settings.Save
import Ident160.Text.Quoted

/-!
What a run notes down about its work. A record has a level, the part of the program that it comes
from, and a message. Whether records are shown is no matter of the program: no level here is that
of an error, and errors are all that is shown unless more is asked for.
-/

namespace Ident160

inductive LogLevel where
  | error
  | warn
  | info
  | debug
  | trace
deriving DecidableEq

namespace LogLevel

def name : LogLevel → String
  | .error => "ERROR"
  | .warn => "WARN"
  | .info => "INFO"
  | .debug => "DEBUG"
  | .trace => "TRACE"

/-- The place of a level among all of them, the gravest first. -/
def rank : LogLevel → Nat
  | .error => 0
  | .warn => 1
  | .info => 2
  | .debug => 3
  | .trace => 4

def ofName? (name : String) : Option LogLevel :=
  [.error, .warn, .info, .debug, .trace].find? fun level => level.name = name.toUpper

end LogLevel

inductive LogRecord where
  /-- A settings file is about to be read. -/
  | reading (path : String)
  | loaded (settings : Settings)
  /-- Limbs are about to be rendered, as many as are told. -/
  | formatting (count : Nat)
  | parsed (limbs : List UInt32)
  | seeding (seed : UInt64)
  | wrote (path : String)
deriving DecidableEq

namespace LogRecord

def level : LogRecord → LogLevel
  | .wrote _ => .info
  | .reading _ | .loaded _ | .formatting _ | .seeding _ => .debug
  | .parsed _ => .trace

def origin : LogRecord → String
  | .reading _ | .wrote _ => "uint160_printer::config"
  | .loaded _ => "uint160_printer::cli"
  | .formatting _ | .parsed _ | .seeding _ => "uint160_printer::core"

def seedText : Option UInt64 → String
  | some seed => "Some(" ++ Digit.decimalText seed.toNat ++ ")"
  | none => "None"

def settingsText (settings : Settings) : String :=
  "PrinterConfig \x7b display: DisplayConfig \x7b uppercase: " ++
    Settings.truthText settings.display.uppercase ++ ", show_limbs: " ++
    Settings.truthText settings.display.showLimbs ++ " \x7d, random: RandomConfig \x7b seed: " ++
    seedText settings.random.seed ++ " \x7d \x7d"

def limbsText (limbs : List UInt32) : String :=
  "[" ++ ", ".intercalate (limbs.map fun limb => Digit.decimalText limb.toNat) ++ "]"

def message : LogRecord → String
  | .reading path => "Reading config " ++ path
  | .loaded settings => "Loaded configuration " ++ settingsText settings
  | .formatting count => "Formatting " ++ Digit.decimalText count ++ " limbs"
  | .parsed limbs => "Parsed limb list " ++ limbsText limbs
  | .seeding seed => "Seeding generator with " ++ Digit.decimalText seed.toNat
  | .wrote path => "Wrote default config to " ++ path

/-- Nothing that is noted down is an error. -/
theorem level_ne_error (r : LogRecord) : r.level ≠ .error := by
  cases r <;> nofun

def line (r : LogRecord) : String :=
  "[" ++ r.level.name ++ " " ++ r.origin ++ "] " ++ r.message ++ "\n"

end LogRecord

end Ident160
