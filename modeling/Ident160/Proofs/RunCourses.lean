import Ident160.Proofs.FileChanges
import Ident160.Proofs.Findings
import Ident160.Proofs.LineInvariants

/-!
The courses that a run can take. All that can fail but the output is tried before anything is
written: so a run is stopped in the same way whatever its console is, or it comes to writing one
text. The host is another one by then only if settings were to be saved.
-/

namespace Ident160

/-- Nothing but errors is shown of what is noted down. -/
def Host.IsQuiet (host : Host) : Prop := host.lookupVariable "RUST_LOG" = none

namespace Invocation

/-- The output is written without regard to who reads it. -/
def WritesDirectly (invocation : Invocation) : Prop :=
  invocation.version = false ∧
    (invocation.command = none ∨ invocation.command = some (.config false))

def Saves (invocation : Invocation) : Prop :=
  invocation.version = false ∧ invocation.command = some (.config true)

/-- Settings are loaded, for a command to be carried out under them. -/
def Loads (invocation : Invocation) : Prop :=
  invocation.version = false ∧
    ∃ command, invocation.command = some command ∧ ∀ init, command ≠ .config init

theorem Saves.not_loads {invocation : Invocation} (h : invocation.Saves) : ¬ invocation.Loads := by
  rintro ⟨_, command, hcommand, hconfig⟩
  exact hconfig true (Option.some.inj (hcommand.symm.trans h.2))

theorem Saves.not_writesDirectly {invocation : Invocation} (h : invocation.Saves) :
    ¬ invocation.WritesDirectly := by
  rintro ⟨_, hnone | hreport⟩
  · exact nomatch hnone.symm.trans h.2
  · exact nomatch hreport.symm.trans h.2

theorem WritesDirectly.not_loads {invocation : Invocation} (h : invocation.WritesDirectly) :
    ¬ invocation.Loads := by
  rintro ⟨_, command, hcommand, hconfig⟩
  rcases h.2 with hnone | hreport
  · exact nomatch hnone.symm.trans hcommand
  · exact hconfig false (Option.some.inj (hcommand.symm.trans hreport))

end Invocation

namespace Work

/-- The work is stopped before anything is written, whatever the console is. -/
def StopsAt (work : Work Unit) (host : Host) (stop : Stop) (left : Host) : Prop :=
  ∃ log, ∀ console, work ⟨host, console, []⟩ = .error stop ⟨left, console, log⟩

/-- The work comes to some output, whatever the console is, and nothing is left to do then. -/
def ComesTo (work : Work Unit) (host : Host) (output : Work Unit) (left : Host) : Prop :=
  ∃ log, ∀ console, work ⟨host, console, []⟩ = output ⟨left, console, log⟩

end Work

namespace Libraries

open Work

variable (libraries : Libraries) {host : Host} {chosen : Option String} {settings : Settings}

theorem loadSettings_apply (host : Host) (console : Console) (log : List LogRecord) :
    libraries.loadSettings chosen ⟨host, console, log⟩ =
      (take (libraries.settingsStop host chosen) (host.settings libraries.loader chosen) >>=
        fun settings => note (.loaded settings) >>= fun _ => pure settings)
        ⟨host, console, log ++ (host.settingsFiles chosen).map .reading⟩ := rfl

/-- Files are noted down before they are read, and settings once they are loaded. -/
theorem loadSettings_of_ok (h : host.settings libraries.loader chosen = .ok settings)
    (console : Console) (log : List LogRecord) :
    libraries.loadSettings chosen ⟨host, console, log⟩ =
      .ok settings ⟨host, console,
        log ++ (host.settingsFiles chosen).map .reading ++ [.loaded settings]⟩ := by
  rw [loadSettings_apply, h]
  rfl

theorem loadSettings_of_error {fault : SettingsFault}
    (h : host.settings libraries.loader chosen = .error fault) (console : Console)
    (log : List LogRecord) :
    libraries.loadSettings chosen ⟨host, console, log⟩ =
      .error (libraries.settingsStop host chosen fault)
        ⟨host, console, log ++ (host.settingsFiles chosen).map .reading⟩ := by
  rw [loadSettings_apply, h]
  rfl

theorem settingsStop_of_ne {fault : SettingsFault} (h : fault ≠ .overlong) :
    libraries.settingsStop host chosen fault =
      .failed (.settings fault (libraries.settingsText host chosen fault)) := by
  cases fault with
  | overlong => exact absurd rfl h
  | noDocument | malformed | wrongKind | noSection => rfl

/-- All that a run has noted down when it comes to the output of its command. -/
def commandLog (host : Host) (chosen : Option String) (settings : Settings) (command : Command) :
    List LogRecord :=
  (host.settingsFiles chosen).map .reading ++ [.loaded settings] ++ command.records settings

section

variable (entropy : ChaCha.Key) {invocation : Invocation} {command : Command}

theorem perform_of_command (hversion : invocation.version = false)
    (hcommand : invocation.command = some command) (hconfig : ∀ init, command ≠ .config init) :
    libraries.perform entropy invocation =
      libraries.loadSettings invocation.configPath >>= fun settings =>
        command.execute settings entropy := by
  cases command with
  | config init => exact absurd rfl (hconfig init)
  | format | parse | distance | random | hash =>
    simp only [perform, hversion, hcommand, Bool.false_eq_true, if_false]

variable (hversion : invocation.version = false) (hcommand : invocation.command = some command)
  (hconfig : ∀ init, command ≠ .config init)

include hversion hcommand hconfig

theorem perform_of_settings (hcount : ∀ seed n, command = .random seed n → 1 ≤ n)
    (hsettings : host.settings libraries.loader invocation.configPath = .ok settings)
    (console : Console) :
    libraries.perform entropy invocation ⟨host, console, []⟩ =
      (take .failed (command.find settings entropy) >>= fun finding =>
        display (settings.shown finding))
      ⟨host, console, commandLog host invocation.configPath settings command⟩ := by
  have hloaded := libraries.loadSettings_of_ok hsettings console []
  rw [libraries.perform_of_command entropy hversion hcommand hconfig, bind_of_ok hloaded,
    Command.execute_eq settings entropy hconfig hcount]
  rfl

/-- Where settings do not load, a command is not looked at. -/
theorem perform_of_settings_fault {fault : SettingsFault}
    (hsettings : host.settings libraries.loader invocation.configPath = .error fault) :
    StopsAt (libraries.perform entropy invocation) host
      (libraries.settingsStop host invocation.configPath fault) host := by
  refine ⟨[] ++ (host.settingsFiles invocation.configPath).map .reading, fun console => ?_⟩
  have hfault := libraries.loadSettings_of_error hsettings console []
  rw [libraries.perform_of_command entropy hversion hcommand hconfig, bind_of_error hfault]

end

theorem perform_of_saved (entropy : ChaCha.Key) {invocation : Invocation} {path : String}
    {changed : Host} (hsaves : invocation.Saves)
    (hcreate : host.createUserFile = .ok (path, changed)) (console : Console) :
    libraries.perform entropy invocation ⟨host, console, []⟩ =
      display ("Wrote " ++ path ++ "\n") ⟨changed, console, [.wrote path]⟩ := by
  have hdone : saveDefaults ⟨host, console, []⟩ = .ok path ⟨changed, console, [.wrote path]⟩ := by
    simp only [saveDefaults, hcreate, List.nil_append]
  simp only [perform, hsaves.1, hsaves.2, Bool.false_eq_true, if_false]
  exact bind_of_ok hdone _

/-- Settings that cannot be written leave what has been made on the way to them. -/
theorem perform_of_save_fault (entropy : ChaCha.Key) {invocation : Invocation} {fault : SaveFault}
    {left : Host} (hsaves : invocation.Saves)
    (hcreate : host.createUserFile = .error (fault, left)) :
    StopsAt (libraries.perform entropy invocation) host (.failed (.saving fault)) left := by
  refine ⟨[], fun console => ?_⟩
  have hstop : saveDefaults ⟨host, console, []⟩ =
      .error (.failed (.saving fault)) ⟨left, console, []⟩ := by
    simp only [saveDefaults, hcreate]
  simp only [perform, hsaves.1, hsaves.2, Bool.false_eq_true, if_false]
  exact bind_of_error hstop _

/-- A run with this command line has to load settings that are too long. -/
def Overlong (host : Host) (invocation : Invocation) : Prop :=
  invocation.Loads ∧
    host.settings libraries.loader invocation.configPath = .error .overlong

theorem not_overlong_of_not_loads {invocation : Invocation} (h : ¬ invocation.Loads) :
    ¬ libraries.Overlong host invocation := fun hoverlong => h hoverlong.1

/-- The courses that the work of a run can take until it writes. -/
inductive Course (host : Host) (entropy : ChaCha.Key) (invocation : Invocation) : Prop where
  | displayed (text : String) (hindirect : ¬ invocation.WritesDirectly)
      (hfits : ¬ libraries.Overlong host invocation)
      (h : ComesTo (libraries.perform entropy invocation) host (display text) host)
  | direct (text : String) (stop : SystemError → Stop) (hdirect : invocation.WritesDirectly)
      (hstop : (∀ e, stop e = .failed (.help e)) ∨ ∀ e, stop e = .crashed (.report e))
      (h : ComesTo (libraries.perform entropy invocation) host (write stop text) host)
  | saved (path : String) (changed : Host) (hsaves : invocation.Saves)
      (hcreate : host.createUserFile = .ok (path, changed))
      (h : ComesTo (libraries.perform entropy invocation) host
        (display ("Wrote " ++ path ++ "\n")) changed)
  | unsaved (fault : SaveFault) (left : Host) (hsaves : invocation.Saves)
      (hcreate : host.createUserFile = .error (fault, left))
      (h : StopsAt (libraries.perform entropy invocation) host (.failed (.saving fault)) left)
  | failed (fault : RunFault) (hfits : ¬ libraries.Overlong host invocation)
      (h : StopsAt (libraries.perform entropy invocation) host (.failed fault) host)
  | overlong (hoverlong : libraries.Overlong host invocation)
      (h : StopsAt (libraries.perform entropy invocation) host (.crashed .overlong) host)

/-- A command finds something to display under its settings, unless it is stopped before. -/
theorem course_of_command (entropy : ChaCha.Key) {invocation : Invocation} {command : Command}
    (hversion : invocation.version = false) (hcommand : invocation.command = some command)
    (hconfig : ∀ init, command ≠ .config init)
    (hcount : ∀ seed n, command = .random seed n → 1 ≤ n) :
    libraries.Course host entropy invocation := by
  have hindirect : ¬ invocation.WritesDirectly := by
    intro hdirect
    exact hdirect.not_loads ⟨hversion, command, hcommand, hconfig⟩
  cases hsettings : host.settings libraries.loader invocation.configPath with
  | error fault =>
    have hstops :=
      libraries.perform_of_settings_fault entropy hversion hcommand hconfig hsettings
    by_cases hlong : fault = .overlong
    · subst hlong
      exact .overlong ⟨⟨hversion, command, hcommand, hconfig⟩, hsettings⟩ hstops
    · rw [libraries.settingsStop_of_ne hlong] at hstops
      refine .failed _ ?_ hstops
      intro hoverlong
      exact hlong (Except.error.inj (hsettings.symm.trans hoverlong.2))
  | ok settings =>
    have hperform :=
      libraries.perform_of_settings entropy hversion hcommand hconfig hcount hsettings
    have hfits : ¬ libraries.Overlong host invocation := by
      intro hoverlong
      exact nomatch hsettings.symm.trans hoverlong.2
    cases hfind : command.find settings entropy with
    | error fault =>
      rw [hfind] at hperform
      exact .failed fault hfits ⟨_, hperform⟩
    | ok finding =>
      rw [hfind] at hperform
      exact .displayed (settings.shown finding) hindirect hfits ⟨_, hperform⟩

/-- Every command line that is accepted is carried out in one of these courses. -/
theorem course (host : Host) (entropy : ChaCha.Key) {args : List String} {invocation : Invocation}
    (hread : Line.read args = .ok invocation) : libraries.Course host entropy invocation := by
  obtain ⟨path, version, command?⟩ := invocation
  cases version with
  | true =>
    refine .displayed Release.current.report ?_ ?_ ⟨[], fun _ => rfl⟩
    · rintro ⟨⟨⟩, _⟩
    · rintro ⟨⟨⟨⟩, _⟩, _⟩
  | false =>
    cases command? with
    | none => exact .direct helpText _ ⟨rfl, Or.inl rfl⟩ (Or.inl fun _ => rfl) ⟨[], fun _ => rfl⟩
    | some command =>
      by_cases hconfig : ∃ init, command = .config init
      · obtain ⟨init, rfl⟩ := hconfig
        cases init with
        | false =>
          exact .direct (host.settingsReport path) _ ⟨rfl, Or.inr rfl⟩ (Or.inr fun _ => rfl)
            ⟨[], fun _ => rfl⟩
        | true =>
          have hsaves : Invocation.Saves ⟨path, false, some (.config true)⟩ := ⟨rfl, rfl⟩
          cases hcreate : host.createUserFile with
          | error found =>
            exact .unsaved found.1 found.2 hsaves hcreate
              (libraries.perform_of_save_fault entropy hsaves hcreate)
          | ok saved =>
            exact .saved saved.1 saved.2 hsaves hcreate
              ⟨_, libraries.perform_of_saved entropy hsaves hcreate⟩
      · have hother : ∀ init, command ≠ .config init := fun init heq => hconfig ⟨init, heq⟩
        refine libraries.course_of_command entropy rfl rfl hother ?_
        intro seed n hrandom
        exact (Line.count_range hread (congrArg some hrandom)).1

/-! ### Whole runs -/

/-- A text that is displayed on a working sink is all that a run has written in the end. -/
theorem outcome_display_working (environment : List (String × String)) (args : List String)
    (text : String) (host : Host) (log : List LogRecord) :
    libraries.outcome environment args (display text ⟨host, ⟨.working, ""⟩, log⟩) =
      ⟨.done, text, libraries.logText environment log, host⟩ := by
  have hdone : libraries.outcome environment args (display text ⟨host, ⟨.working, ""⟩, log⟩) =
      ⟨.done, "" ++ text, libraries.logText environment log ++ "", host⟩ := rfl
  rw [hdone, String.empty_append, String.append_empty]

/-- A run that is carried out does not tell its command line again. -/
theorem outcome_args_congr (environment : List (String × String)) (args args' : List String)
    (result : EStateM.Result Stop Session Unit) :
    libraries.outcome environment args result = libraries.outcome environment args' result := by
  cases result with
  | ok _ session => rfl
  | error stop session => cases stop <;> rfl

/-- What has been noted down is not seen in the output, nor in the files. -/
theorem seen_of_display (environment : List (String × String)) (args args' : List String)
    (text : String) (host : Host) (console : Console) (log log' : List LogRecord) :
    let outcome := libraries.outcome environment args (display text ⟨host, console, log⟩)
    let outcome' := libraries.outcome environment args' (display text ⟨host, console, log'⟩)
    outcome.ending = outcome'.ending ∧ outcome.written = outcome'.written ∧
      outcome.host = outcome'.host := by
  simp only [display]
  cases console.print text <;> exact ⟨rfl, rfl, rfl⟩

end Libraries

section

variable {libraries : Libraries} {host left : Host} {entropy : ChaCha.Key} {args : List String}
  {invocation : Invocation}

theorem run_eq (hread : Line.read args = .ok invocation) (sink : Sink) :
    run libraries host entropy sink args =
      libraries.outcome host.environment args
        (libraries.perform entropy invocation ⟨host, ⟨sink, ""⟩, []⟩) := by
  rw [run, hread]

/-- A run that is stopped before it writes ends alike on every sink. -/
theorem run_of_stopsAt {stop : Stop} (hread : Line.read args = .ok invocation)
    (h : (libraries.perform entropy invocation).StopsAt host stop left) :
    ∃ log, ∀ sink, run libraries host entropy sink args =
      Session.outcome ⟨left, ⟨sink, ""⟩, log⟩ libraries host.environment args stop.ending := by
  obtain ⟨log, hstops⟩ := h
  refine ⟨log, fun sink => ?_⟩
  rw [run_eq hread, hstops]
  rfl

/-- What is seen of a run depends on the sink only through its output. -/
theorem run_of_comesTo {output : Work Unit} (hread : Line.read args = .ok invocation)
    (h : (libraries.perform entropy invocation).ComesTo host output left) :
    ∃ log, ∀ sink, run libraries host entropy sink args =
      libraries.outcome host.environment args (output ⟨left, ⟨sink, ""⟩, log⟩) := by
  obtain ⟨log, hcomes⟩ := h
  refine ⟨log, fun sink => ?_⟩
  rw [run_eq hread, hcomes]

/-- A command line that is accepted is carried out. -/
theorem ending_ne_refused (hread : Line.read args = .ok invocation) (sink : Sink)
    (fault : UsageFault) : (run libraries host entropy sink args).ending ≠ .refused fault := by
  rw [run_eq hread]
  cases libraries.perform entropy invocation ⟨host, ⟨sink, ""⟩, []⟩ with
  | ok _ session => nofun
  | error stop session => cases stop <;> nofun

/-- Where the log is not shown, a run tells its end and nothing else. -/
theorem errorWritten_of_isQuiet (hread : Line.read args = .ok invocation) (hquiet : host.IsQuiet)
    (sink : Sink) :
    (run libraries host entropy sink args).errorWritten =
      libraries.endingText args (run libraries host entropy sink args).ending := by
  rw [run_eq hread]
  cases libraries.perform entropy invocation ⟨host, ⟨sink, ""⟩, []⟩ with
  | ok _ session =>
    simp only [Libraries.outcome, Session.outcome, libraries.logText_of_unset hquiet,
      String.empty_append]
  | error stop session =>
    simp only [Libraries.outcome, Session.outcome, libraries.logText_of_unset hquiet,
      String.empty_append]

/-- Output that is done, whichever way it is written, is all that is seen of a run. -/
theorem run_of_output {output : Work Unit} {text : String} {sink : Sink}
    (hread : Line.read args = .ok invocation) (hquiet : host.IsQuiet)
    (h : (libraries.perform entropy invocation).ComesTo host output left)
    (houtput : ∀ log, output ⟨left, ⟨sink, ""⟩, log⟩ = .ok () ⟨left, ⟨sink, text⟩, log⟩) :
    run libraries host entropy sink args = ⟨.done, text, "", left⟩ := by
  obtain ⟨log, hrun⟩ := run_of_comesTo hread h
  rw [hrun, houtput]
  simp only [Libraries.outcome, Session.outcome, libraries.logText_of_unset hquiet]
  rfl

/-- Runs that end alike tell the same, as long as the log is not shown. -/
theorem errorWritten_congr {host' : Host} {entropy' : ChaCha.Key} {sink : Sink}
    {args' : List String} {invocation' : Invocation} (hread : Line.read args = .ok invocation)
    (hread' : Line.read args' = .ok invocation') (hquiet : host.IsQuiet) (hquiet' : host'.IsQuiet)
    (h : (run libraries host entropy sink args).ending =
      (run libraries host' entropy' sink args').ending) :
    (run libraries host entropy sink args).errorWritten =
      (run libraries host' entropy' sink args').errorWritten := by
  rw [errorWritten_of_isQuiet hread hquiet, errorWritten_of_isQuiet hread' hquiet', ← h]
  have hcarried : ∀ fault, (run libraries host entropy sink args).ending ≠ .refused fault :=
    ending_ne_refused hread sink
  cases hending : (run libraries host entropy sink args).ending with
  | refused fault => exact absurd hending (hcarried fault)
  | done | failed | crashed => rfl

/-- The path that is told is noted down, too. -/
theorem run_of_saved {path : String} {changed : Host}
    (hcreate : host.createUserFile = .ok (path, changed)) (hread : Line.read args = .ok invocation)
    (hsaves : invocation.Saves) (libraries : Libraries) (entropy : ChaCha.Key) :
    run libraries host entropy .working args =
      ⟨.done, "Wrote " ++ path ++ "\n", libraries.logText host.environment [.wrote path],
        changed⟩ := by
  rw [run_eq hread, libraries.perform_of_saved entropy hsaves hcreate,
    libraries.outcome_display_working]

end

section

variable {libraries : Libraries} {host : Host} {entropy : ChaCha.Key} {sink : Sink}
  {args : List String} {path : Option String} {command : Command} {settings : Settings}
  (hread : Line.read args = .ok ⟨path, false, some command⟩)
  (hconfig : ∀ init, command ≠ .config init)

include hread hconfig

/-- A run of a command finds something under the settings that it has loaded, and displays it. -/
theorem run_of_settings (hsettings : host.settings libraries.loader path = .ok settings)
    (sink : Sink) :
    run libraries host entropy sink args =
      libraries.outcome host.environment args
        ((Work.take .failed (command.find settings entropy) >>= fun finding =>
          Work.display (settings.shown finding))
        ⟨host, ⟨sink, ""⟩, Libraries.commandLog host path settings command⟩) := by
  have hcount : ∀ seed n, command = .random seed n → 1 ≤ n :=
    fun seed n hrandom => (Line.count_range hread (congrArg some hrandom)).1
  rw [run_eq hread, libraries.perform_of_settings entropy rfl rfl hconfig hcount hsettings]

theorem run_of_found {finding : Finding}
    (hsettings : host.settings libraries.loader path = .ok settings)
    (hfind : command.find settings entropy = .ok finding) :
    run libraries host entropy .working args =
      ⟨.done, settings.shown finding, libraries.logText host.environment
        (Libraries.commandLog host path settings command), host⟩ := by
  rw [run_of_settings hread hconfig hsettings, hfind, ← libraries.outcome_display_working]
  rfl

theorem run_of_fault {fault : RunFault}
    (hsettings : host.settings libraries.loader path = .ok settings)
    (hfind : command.find settings entropy = .error fault) (sink : Sink) :
    run libraries host entropy sink args =
      Session.outcome ⟨host, ⟨sink, ""⟩, Libraries.commandLog host path settings command⟩ libraries
        host.environment args (.failed fault) := by
  rw [run_of_settings hread hconfig hsettings, hfind]
  rfl

/-- A run that gets done has loaded its settings and found something. -/
theorem found_of_done (h : (run libraries host entropy sink args).ending = .done) :
    ∃ settings finding, host.settings libraries.loader path = .ok settings ∧
      command.find settings entropy = .ok finding := by
  cases hsettings : host.settings libraries.loader path with
  | error fault =>
    obtain ⟨log, hrun⟩ := run_of_stopsAt hread
      (libraries.perform_of_settings_fault entropy rfl rfl hconfig hsettings)
    rw [hrun] at h
    cases fault <;> cases h
  | ok settings =>
    cases hfind : command.find settings entropy with
    | error fault =>
      rw [run_of_fault hread hconfig hsettings hfind] at h
      cases h
    | ok finding => exact ⟨settings, finding, rfl, hfind⟩

end

/-- Two command lines that find the same under the same settings have runs that are the same, also
in how they fail, as far as the log is not shown. -/
theorem runs_of_find_eq {libraries : Libraries} {host : Host} {entropy : ChaCha.Key}
    {args args' : List String} {path : Option String} {command command' : Command}
    (hread : Line.read args = .ok ⟨path, false, some command⟩)
    (hread' : Line.read args' = .ok ⟨path, false, some command'⟩)
    (hconfig : ∀ init, command ≠ .config init) (hconfig' : ∀ init, command' ≠ .config init)
    (hfind : ∀ settings, command.find settings entropy = command'.find settings entropy)
    (sink : Sink) :
    let outcome := run libraries host entropy sink args
    let outcome' := run libraries host entropy sink args'
    outcome.ending = outcome'.ending ∧ outcome.written = outcome'.written ∧
      outcome.host = outcome'.host ∧ (host.IsQuiet → outcome = outcome') := by
  intro outcome outcome'
  have hseen : outcome.ending = outcome'.ending ∧ outcome.written = outcome'.written ∧
      outcome.host = outcome'.host := by
    cases hsettings : host.settings libraries.loader path with
    | error fault =>
      obtain ⟨log, hrun⟩ := run_of_stopsAt hread
        (libraries.perform_of_settings_fault entropy rfl rfl hconfig hsettings)
      obtain ⟨log', hrun'⟩ := run_of_stopsAt hread'
        (libraries.perform_of_settings_fault entropy rfl rfl hconfig' hsettings)
      have houtcome : outcome = _ := hrun sink
      have houtcome' : outcome' = _ := hrun' sink
      rw [houtcome, houtcome']
      exact ⟨rfl, rfl, rfl⟩
    | ok settings =>
      have houtcome : outcome = _ := run_of_settings hread hconfig hsettings sink
      have houtcome' : outcome' = _ := run_of_settings hread' hconfig' hsettings sink
      rw [houtcome, houtcome', hfind settings]
      cases command'.find settings entropy with
      | error fault => exact ⟨rfl, rfl, rfl⟩
      | ok finding => exact libraries.seen_of_display host.environment args args' _ host _ _ _
  obtain ⟨hending, hwritten, hhost⟩ := hseen
  refine ⟨hending, hwritten, hhost, fun hquiet => ?_⟩
  have htold : outcome.errorWritten = outcome'.errorWritten :=
    errorWritten_congr hread hread' hquiet hquiet hending
  exact Outcome.ext hending hwritten htold hhost

end Ident160
