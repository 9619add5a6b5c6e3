import Ident160.Command.Libraries
import Ident160.Command.Line
import Ident160.Listing
import Ident160.Release
import Ident160.Settings.Report

/-!
A whole run of the program, as a function of what surrounds it: the libraries, the host, the words
that seed random identifiers when no seed is known, the sink of the output and the arguments. The
work of a run changes files, fills the console and notes down records. It may be stopped at any
step, and what it has done until then stays. The outcome tells how the run ends, what it has
written, and the host as the run leaves it.
-/

namespace Ident160

structure Session where
  host : Host
  console : Console
  log : List LogRecord := []

abbrev Work := EStateM Stop Session

namespace Work

def note (r : LogRecord) : Work Unit :=
  modify fun session => { session with log := session.log ++ [r] }

def notes (records : List LogRecord) : Work Unit :=
  modify fun session => { session with log := session.log ++ records }

def write (stop : SystemError → Stop) (text : String) : Work Unit := fun session =>
  match session.console.write text with
  | .ok console => .ok () { session with console }
  | .error e => .error (stop e) session

def display (text : String) : Work Unit := fun session =>
  match session.console.print text with
  | .ok console => .ok () { session with console }
  | .error e => .error (.failed (.output e)) session

def take {ε α : Type} (stop : ε → Stop) : Except ε α → Work α
  | .ok a => pure a
  | .error e => throw (stop e)

def displayValue (settings : Settings) (a : Ident) : Work Unit :=
  match Listing.describe (settings.describe a) settings.display.showLimbs with
  | some text => display text
  | none => throw (.crashed .description)

/-- Writes the next `n` identifiers of a stream, item by item, as a list that goes on at
`index`. -/
def displayItems (settings : Settings) : Nat → Nat → Keystream → Work Unit
  | _, 0, _ => pure ()
  | index, n + 1, k => do
    let (a, k) := k.nextIdent
    display (Listing.item index (settings.describe a).hex)
    displayItems settings (index + 1) n k

def readIdent (text : String) : Work Ident :=
  take (fun e => .failed (.identifier text e)) (Ident.read text)

def renderLimbs (settings : Settings) (limbs : List UInt32) : Work String := do
  note (.formatting limbs.length)
  take (fun e => .failed (.limbs e)) (settings.renderLimbs limbs)

def renderLimbList (settings : Settings) (text : String) : Work String := do
  let limbs ← take (fun fault => .failed (.limbs (.badList fault))) (LimbList.read text)
  note (.parsed limbs)
  renderLimbs settings limbs

def keystream (settings : Settings) (asked : Option UInt64) (entropy : ChaCha.Key) :
    Work Keystream := do
  notes ((settings.effectiveSeed asked).toList.map .seeding)
  return settings.keystream asked entropy

def saveDefaults : Work String := fun session =>
  match session.host.createUserFile with
  | .ok (path, changed) =>
    .ok path { session with host := changed, log := session.log ++ [.wrote path] }
  | .error (fault, left) => .error (.failed (.saving fault)) { session with host := left }

end Work

open Work

/-- Carries out a command under given settings. The settings themselves are no matter of this. -/
def Command.execute (settings : Settings) (entropy : ChaCha.Key) : Command → Work Unit
  | .format limbs list => do
    let hex ←
      match list with
      | some text => renderLimbList settings text
      | none => renderLimbs settings limbs
    display (hex ++ "\n")
  | .parse hex => do
    let a ← readIdent hex
    displayValue settings a
  | .distance a b => do
    let a ← readIdent a
    let b ← readIdent b
    displayValue settings (a.distance b)
  | .random seed count => do
    let k ← keystream settings seed entropy
    displayItems settings 0 count k
  | .hash text => displayValue settings (Sha1.digestText text)
  | .config _ => pure ()

namespace Host

def settings (host : Host) (loader : Loader) (chosen : Option String) :
    Except SettingsFault Settings :=
  match chosen with
  | some path => host.loadFrom loader path
  | none => host.load loader

def settingsFiles (host : Host) (chosen : Option String) : List String :=
  match chosen with
  | some path => [path]
  | none => host.filesRead

end Host

namespace Libraries

variable (libraries : Libraries)

def settingsStop (host : Host) (chosen : Option String) : SettingsFault → Stop
  | .overlong => .crashed .overlong
  | fault => .failed (.settings fault (libraries.settingsText host chosen fault))

def loadSettings (chosen : Option String) : Work Settings := do
  let host := (← get).host
  notes ((host.settingsFiles chosen).map .reading)
  let settings ← take (libraries.settingsStop host chosen) (host.settings libraries.loader chosen)
  note (.loaded settings)
  return settings

def perform (entropy : ChaCha.Key) (invocation : Invocation) : Work Unit :=
  if invocation.version then
    display Release.current.report
  else
    match invocation.command with
    | none => write (fun e => .failed (.help e)) helpText
    | some (.config true) => do
      let path ← saveDefaults
      display ("Wrote " ++ path ++ "\n")
    | some (.config false) => do
      let host := (← get).host
      write (fun e => .crashed (.report e)) (host.settingsReport invocation.configPath)
    | some command => do
      let settings ← libraries.loadSettings invocation.configPath
      command.execute settings entropy

end Libraries

@[ext]
structure Outcome where
  ending : Ending
  written : String
  errorWritten : String
  host : Host
deriving DecidableEq

/-- What is seen of a session that has come to an end. Variables are those at its start. -/
def Session.outcome (session : Session) (libraries : Libraries)
    (environment : List (String × String)) (args : List String) (ending : Ending) : Outcome where
  ending
  written := session.console.written
  errorWritten := libraries.logText environment session.log ++ libraries.endingText args ending
  host := session.host

def Libraries.outcome (libraries : Libraries) (environment : List (String × String))
    (args : List String) : EStateM.Result Stop Session Unit → Outcome
  | .ok _ session => session.outcome libraries environment args .done
  | .error stop session => session.outcome libraries environment args stop.ending

def run (libraries : Libraries) (host : Host) (entropy : ChaCha.Key) (sink : Sink)
    (args : List String) : Outcome :=
  let console : Console := ⟨sink, ""⟩
  match Line.read args with
  | .error fault =>
    let help := if fault = .helpRequested then libraries.usageText args fault else ""
    Session.outcome ⟨host, console.offer help, []⟩ libraries host.environment args (.refused fault)
  | .ok invocation =>
    libraries.outcome host.environment args
      (libraries.perform entropy invocation ⟨host, console, []⟩)

end Ident160
