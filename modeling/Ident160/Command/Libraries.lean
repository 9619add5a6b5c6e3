import Ident160.Command.Fault
import Ident160.Command.Log
import Ident160.Settings.Load

/-!
What the program leaves to others: reading documents, showing the log, and the texts about a command
line that is not understood, about settings that do not load, and about a crash. Nothing is said
about these texts. Of the log it is known that it shows errors alone, unless a variable asks for
more.
-/

namespace Ident160

structure Libraries where
  loader : Loader
  /-- What is shown of the records of a run with these variables. -/
  logText : List (String × String) → List LogRecord → String
  quiet : ∀ environment records, environment.lookup "RUST_LOG" = none →
    (∀ r ∈ records, r.level ≠ .error) → logText environment records = ""
  settingsText : Host → Option String → SettingsFault → String
  /-- The help for a command line that asks for it, or what is wrong with another one. -/
  usageText : List String → UsageFault → String
  crashText : Crash → String

namespace Libraries

variable (libraries : Libraries)

theorem logText_of_unset {host : Host} (h : host.lookupVariable "RUST_LOG" = none)
    (records : List LogRecord) : libraries.logText host.environment records = "" :=
  libraries.quiet _ _ h fun r _ => r.level_ne_error

def endingText (args : List String) : Ending → String
  | .done => ""
  | .failed fault => "Error: " ++ fault.message ++ "\n"
  | .crashed crash => libraries.crashText crash
  | .refused fault => if fault = .helpRequested then "" else libraries.usageText args fault

theorem endingText_failed (args : List String) (fault : RunFault) :
    libraries.endingText args (.failed fault) = "Error: " ++ fault.message ++ "\n" := rfl

/-! ### Stand-ins -/

/-- Shows records up to the one level that the variable may name. -/
def plainLog (environment : List (String × String)) (records : List LogRecord) : String :=
  let most := ((environment.lookup "RUST_LOG").bind LogLevel.ofName?).getD .error
  "".intercalate ((records.filter fun r => r.level.rank ≤ most.rank).map LogRecord.line)

theorem plainLog_quiet (environment : List (String × String)) (records : List LogRecord)
    (hunset : environment.lookup "RUST_LOG" = none) (h : ∀ r ∈ records, r.level ≠ .error) :
    plainLog environment records = "" := by
  have hnone : (records.filter fun r => r.level.rank ≤ LogLevel.error.rank) = [] := by
    rw [List.filter_eq_nil_iff]
    intro r hr
    have hlevel := h r hr
    cases hr : r.level <;> simp_all [LogLevel.rank]
  simp only [plainLog, hunset, Option.bind_none, Option.getD_none, hnone, List.map_nil]
  rfl

def plainSettingsText : SettingsFault → String
  | .noDocument => "configuration file not found"
  | .malformed => "configuration file cannot be parsed"
  | .wrongKind => "invalid type of a setting"
  | .noSection => "invalid type of a section"
  | .overlong => "capacity overflow"

def plainUsageText : UsageFault → String
  | .helpRequested => helpText
  | _ => "error: invalid arguments\n\nFor more information, try '--help'.\n"

def plainCrashText : Crash → String
  | .report e => "failed printing to stdout: " ++ e.message ++ "\n"
  | .description => "failed to slice string\n"
  | .overlong => "capacity overflow\n"

/-- Libraries with short texts of their own, and with the formats that are read here. -/
def plain : Libraries where
  loader := .plain
  logText := plainLog
  quiet := plainLog_quiet
  settingsText _ _ := plainSettingsText
  usageText _ := plainUsageText
  crashText := plainCrashText

end Libraries

end Ident160
