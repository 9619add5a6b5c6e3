import Ident160.Proofs.DocumentPlaces
import Ident160.Proofs.RunCourses
import Ident160.Proofs.SettingLayers

/-!
What the program makes of the settings file that it writes. The text of the defaults is read as
entries for the truth values and an empty section for the seed, and layers of such entries leave
the defaults as they are. The file is found where the settings of the user are read from. So the
defaults are in force again, whatever was there before.
-/

namespace Ident160

open Document

/-! ### The text of the defaults -/

def writtenDefaults : Entries :=
  [("display", .table [("uppercase", .boolean true), ("show_limbs", .boolean true)]),
    ("random", .table [])]

/-- The text of the defaults is a sound document. -/
theorem read_defaults :
    DocumentFormat.toml.read (Host.dropMark ({} : Settings).fileText) = some writtenDefaults := by
  decide +kernel

theorem writtenDefaults_givenBy :
    ({ uppercase := some true, showLimbs := some true } : Choices).GivenBy writtenDefaults where
  bare := by decide
  tables := by
    intro p v hmem
    cases p <;> simp [writtenDefaults, Setting.sectionName] at hmem <;> exact ⟨_, hmem⟩
  values := by
    intro p v
    cases p <;> simp [writtenDefaults, Choices.value, Setting.sectionName, Setting.name, eq_comm]

/-- Layers that are empty or hold the written defaults leave the defaults in force. -/
theorem ofLayers_of_defaults {layers : List Entries}
    (h : ∀ es ∈ layers, es = [] ∨ es = writtenDefaults) (capacity : Nat) :
    Settings.ofLayers capacity (layers.map .ok) = .ok {} := by
  -- a document that holds the defaults, by choice or without one, still does under each layer
  have hlaid : ∀ {v : Value} {c : Choices}, Holds v c → c.settings = {} →
      Fits capacity v layers.flatten ∧
        Settings.decode (coverAll v layers.flatten) = .ok {} := by
    induction layers with
    | nil =>
      intro v c hholds hdefaults
      rw [List.flatten_nil, ← hdefaults]
      exact ⟨fits_nil capacity v, hholds.decode⟩
    | cons es layers ih =>
      intro v c hholds hdefaults
      obtain ⟨hes, hlayers⟩ := List.forall_mem_cons.mp h
      rw [List.flatten_cons, fits_append, coverAll_append, and_assoc]
      rcases hes with rfl | rfl
      · exact ⟨fits_nil capacity v, ih hlayers hholds hdefaults⟩
      · have hgives := writtenDefaults_givenBy.gives
        have hseed : c.seed = none := congrArg (fun settings => settings.random.seed) hdefaults
        refine ⟨hgives.fits capacity v, ih hlayers (hholds.cover hgives) ?_⟩
        simp [Choices.settings, Choices.overlay, hseed]
  exact Settings.ofLayers_eq_ok_iff.mpr (hlaid holds_defaultDocument rfl)

namespace Path

variable (directory : String)

theorem extension?_join_settingsFile :
    extension? (join directory Host.settingsFile) = some "toml" := by
  have hrelative : isAbsolute Host.settingsFile = false := by decide
  have hname : parts Host.settingsFile = [Host.settingsFile] := by decide
  have hlast : fileName? (join directory Host.settingsFile) = some Host.settingsFile := by
    rw [fileName?, lastName?, parts_join hrelative, hname, List.getLast?_concat]
    rfl
  rw [extension?, hlast]
  decide

theorem asksForDirectory_join_settingsFile :
    asksForDirectory (join directory Host.settingsFile) = false := by
  rw [asksForDirectory_join (by decide)]
  decide

end Path

namespace Host

variable {host : Host} {loader : Loader} {directory path : String} {location : Location}

theorem find_of_leads {node : FileNode} (hleads : host.Leads path location) (hpath : path ≠ "")
    (hends : Path.asksForDirectory path = false) (hnode : host.files.get? location = some node) :
    host.find path = some node := by
  have hfull : path.isEmpty = false := by simpa using hpath
  rw [Leads] at hleads
  simp only [find, hfull, hleads, hnode, hends, Bool.false_eq_true, if_false]
  cases node <;> rfl

/-- What stands where the path of a settings file leads is found, be it a file or not. -/
theorem find_settingsFile {node : FileNode}
    (hleads : host.Leads (Path.join directory settingsFile) location)
    (hnode : host.files.get? location = some node) :
    host.find (Path.join directory settingsFile) = some node :=
  find_of_leads hleads (Path.join_ne_empty directory (by decide))
    (Path.asksForDirectory_join_settingsFile directory) hnode

/-- Every loader reads a settings file, by its extension. -/
theorem requiredEntries_settingsFile (loader : Loader)
    (hleads : host.Leads (Path.join directory settingsFile) location)
    (hfile : host.files.get? location = some (.file ({} : Settings).fileText)) :
    host.requiredEntries loader (Path.join directory settingsFile) = .ok writtenDefaults := by
  have htext : host.text? (Path.join directory settingsFile) = some ({} : Settings).fileText :=
    text?_eq_some_iff.mpr (find_settingsFile hleads hfile)
  have hformat : loader.ofExtension? "toml" = some .toml :=
    Loader.ofExtension?_eq_some_iff.mpr ⟨loader.toml_mem, List.mem_singleton.mpr rfl⟩
  exact requiredEntries_eq_ok_iff.mpr
    ⟨.toml, _, document?_of_text htext (Path.extension?_join_settingsFile directory) hformat,
      read_defaults⟩

theorem optionalEntries_settingsFile (loader : Loader)
    (hleads : host.Leads (Path.join directory settingsFile) location)
    (hfile : host.files.get? location = some (.file ({} : Settings).fileText)) :
    host.optionalEntries loader (Path.join directory settingsFile) = .ok writtenDefaults := by
  refine optionalEntries_of_required ?_ (requiredEntries_settingsFile loader hleads hfile)
  rw [pathExists, find_settingsFile hleads hfile]
  rfl

/-- Nothing stands at the path, or nothing there or beside it that a loader reads. -/
def Lacks (host : Host) (loader : Loader) (path : String) : Prop :=
  host.pathExists path = false ∨ host.document? loader path = none

theorem Lacks.optionalEntries (h : host.Lacks loader path) :
    host.optionalEntries loader path = .ok [] := by
  rcases h with habsent | hnone
  · exact optionalEntries_of_absent habsent
  · rw [Host.optionalEntries, hnone]
    exact ite_self _

/-- The path of the user's settings ends with the name of a settings file. -/
theorem userFile?_eq_some_iff :
    host.userFile? = some path ↔
      ∃ directory, host.userDirectory? = some directory ∧
        Path.join directory settingsFile = path := by
  rw [userFile?, Option.map_eq_some_iff]

/-- A file that holds the defaults is loaded as the defaults. -/
theorem loadFrom_of_defaults (loader : Loader) (huser : host.userFile? = some path)
    (hleads : host.Leads path location)
    (hfile : host.files.get? location = some (.file ({} : Settings).fileText)) :
    host.loadFrom loader path = .ok {} := by
  obtain ⟨directory, _, rfl⟩ := userFile?_eq_some_iff.mp huser
  refine loadFrom_eq_ok_iff.mpr ⟨_, requiredEntries_settingsFile loader hleads hfile, ?_⟩
  exact ofLayers_of_defaults (by simp) loader.capacity

/-- The file of the system may be the very file that holds the defaults. -/
theorem load_of_defaults (huser : host.userFile? = some path) (hleads : host.Leads path location)
    (hfile : host.files.get? location = some (.file ({} : Settings).fileText))
    (hvariables : Variables.entries host.environment = [])
    (hsystem : host.Lacks loader systemFile ∨ host.Leads systemFile location) :
    host.load loader = .ok {} := by
  have husers : host.userEntries loader = .ok writtenDefaults := by
    obtain ⟨directory, _, rfl⟩ := userFile?_eq_some_iff.mp huser
    rw [userEntries, huser]
    exact optionalEntries_settingsFile loader hleads hfile
  have hsystems : ∃ system, host.optionalEntries loader systemFile = .ok system ∧
      (system = [] ∨ system = writtenDefaults) := by
    rcases hsystem with hlacks | hsame
    · exact ⟨[], hlacks.optionalEntries, Or.inl rfl⟩
    · have hjoin : systemFile = Path.join "/etc/uint160-printer" settingsFile := by decide
      rw [hjoin] at hsame ⊢
      exact ⟨_, optionalEntries_settingsFile loader hsame hfile, Or.inr rfl⟩
  obtain ⟨system, hfound, hempty⟩ := hsystems
  refine load_eq_ok_iff.mpr ⟨system, hfound, _, husers, ofLayers_of_defaults ?_ loader.capacity⟩
  simp [hvariables, hempty]

/-- The report starts with the user's file, and says that it is found. -/
theorem settingsReport_of_userFile (huser : host.userFile? = some path)
    (hexists : host.pathExists path = true) :
    ∃ rest, host.settingsReport none =
      reportTitle ++ ("User config file: " ++ path ++ "\n  Status: ✓ Found\n") ++ rest := by
  let missing := "✗ Not found (will use defaults)"
  refine ⟨host.fileLines "System config file" systemFile missing ++ variableLines, ?_⟩
  simp only [settingsReport, defaultLines, huser, fileLines, hexists, if_true, String.append_assoc]
  rfl

end Host

/-! ### Runs that write the file -/

section

variable {libraries : Libraries} {host : Host} {entropy : ChaCha.Key} {args : List String}
  {invocation : Invocation} {sink : Sink}

/-- A run that does not save settings leaves the host as it is. -/
theorem host_of_not_saves (hread : Line.read args = .ok invocation) (hsaves : ¬ invocation.Saves) :
    (run libraries host entropy sink args).host = host := by
  cases libraries.course host entropy hread with
  | displayed text _ _ hcomes =>
    obtain ⟨log, hrun⟩ := run_of_comesTo hread hcomes
    rw [hrun, Work.display]
    dsimp only
    cases Console.print ⟨sink, ""⟩ text <;> rfl
  | direct text stop _ _ hcomes =>
    obtain ⟨log, hrun⟩ := run_of_comesTo hread hcomes
    rw [hrun, Work.write]
    dsimp only
    cases Console.write ⟨sink, ""⟩ text <;> rfl
  | saved _ _ hsaves' => exact absurd hsaves' hsaves
  | unsaved _ _ hsaves' => exact absurd hsaves' hsaves
  | failed _ _ hstops | overlong _ hstops =>
    obtain ⟨log, hrun⟩ := run_of_stopsAt hread hstops
    rw [hrun]
    rfl

/-- Settings that do not load are none that are saved. -/
theorem host_of_settings_fault
    (h : (∃ fault told,
        (run libraries host entropy .working args).ending = .failed (.settings fault told)) ∨
      (run libraries host entropy .working args).ending = .crashed .overlong) :
    (run libraries host entropy .working args).host = host := by
  cases hread : Line.read args with
  | error fault =>
    rw [run, hread]
    rfl
  | ok invocation =>
    refine host_of_not_saves hread fun hsaves => ?_
    cases hcreate : host.createUserFile with
    | ok saved =>
      rw [run_of_saved hcreate hread hsaves libraries entropy] at h
      simp at h
    | error unsaved =>
      obtain ⟨log, hrun⟩ :=
        run_of_stopsAt hread (libraries.perform_of_save_fault entropy hsaves hcreate)
      rw [hrun] at h
      simp [Session.outcome, Stop.ending] at h

end

/-- Where writing the user's settings file succeeds, it is the file that settings are read from, no
file elsewhere is another than before, and to do it again changes nothing. Unless a device has taken
the text, the defaults are in force: under the path itself, and also without a chosen file if no
variable is set for them and the system has no file of its own. The report finds the file. A run
that is asked to write it does so whatever the settings were, and after a run that could not load
them, too. -/
theorem written_settings_restore_defaults (libraries : Libraries) (host changed : Host)
    (path : String) (hcreate : host.createUserFile = .ok (path, changed)) :
    host.userFile? = some path ∧
      changed.createUserFile = .ok (path, changed) ∧
      (∃ location, changed.Leads path location ∧ host.Writes changed location ∧
        (host.files.get? location ≠ some .special →
          changed.loadFrom libraries.loader path = .ok {} ∧
            ((∀ entry ∈ host.environment,
                ¬ Variables.ownWords <+: entry.1.toList.map Char.toLower) →
              changed.Lacks libraries.loader Host.systemFile ∨
                changed.Leads Host.systemFile location →
              changed.load libraries.loader = .ok {}))) ∧
      (∃ rest, changed.settingsReport none =
        Host.reportTitle ++ ("User config file: " ++ path ++ "\n  Status: ✓ Found\n") ++ rest) ∧
      ∀ (entropy : ChaCha.Key) (args : List String) (invocation : Invocation),
        Line.read args = .ok invocation → invocation.Saves →
        let written : Outcome := ⟨.done, "Wrote " ++ path ++ "\n",
          libraries.logText host.environment [.wrote path], changed⟩
        run libraries host entropy .working args = written ∧
          run libraries changed entropy .working args = written ∧
          ∀ others : List String,
            let before := run libraries host entropy .working others
            ((∃ fault told, before.ending = .failed (.settings fault told)) ∨
              before.ending = .crashed .overlong) →
            run libraries before.host entropy .working args = written := by
  obtain ⟨huser, location, hleads, hwrites, hwritten⟩ := Host.createUserFile_eq_ok hcreate
  have hsurroundings := hwrites.surroundings
  have henvironment : changed.environment = host.environment := by rw [hsurroundings]
  have hagain := Host.createUserFile_again hcreate
  have husers : changed.userFile? = some path := by
    rw [hsurroundings]
    exact huser
  have hexists : changed.pathExists path = true := by
    obtain ⟨directory, _, rfl⟩ := Host.userFile?_eq_some_iff.mp huser
    obtain hfile | ⟨_, hspecial⟩ := hwritten
    · rw [Host.pathExists, Host.find_settingsFile hleads hfile, Option.isSome_some]
    · rw [Host.pathExists, Host.find_settingsFile hleads hspecial, Option.isSome_some]
  refine ⟨huser, hagain, ⟨location, hleads, hwrites, ?_⟩,
    Host.settingsReport_of_userFile husers hexists, ?_⟩
  · intro hdevice
    have hfile := hwritten.resolve_right fun h => hdevice h.1
    refine ⟨Host.loadFrom_of_defaults libraries.loader husers hleads hfile, ?_⟩
    intro hforeign hsystem
    refine Host.load_of_defaults husers hleads hfile ?_ hsystem
    rw [henvironment]
    exact Variables.entries_of_foreign hforeign
  · intro entropy args invocation hread hsaves written
    have hrun : run libraries host entropy .working args = written :=
      run_of_saved hcreate hread hsaves libraries entropy
    refine ⟨hrun, ?_, ?_⟩
    · rw [run_of_saved hagain hread hsaves libraries entropy, henvironment]
    · intro others before hfault
      have hsame : before.host = host := host_of_settings_fault hfault
      rw [hsame]
      exact hrun

/-- A settings file that is no document stops every command, until it is written anew. A relative
directory in the variable does not count. -/
theorem malformed_settings_repaired :
    let home : List (Location × FileNode) := [(["home", "u", ".config"], .directory),
      (["home", "u"], .directory), (["home"], .directory)]
    let file : Location := ["home", "u", ".config", "uint160-printer", "config.toml"]
    let directory : Location × FileNode := (file.dropLast, .directory)
    let environment := [("HOME", "/home/u"), ("XDG_CONFIG_HOME", "config")]
    let host : Host := { environment, files := ⟨(file, .file "display = [") :: directory :: home⟩ }
    let changed : Host :=
      { environment, files := ⟨(file, .file ({} : Settings).fileText) :: directory :: home⟩ }
    let entropy : ChaCha.Key := Vector.replicate 8 0
    let path := "/home/u/.config/uint160-printer/config.toml"
    let before := run .plain host entropy .working ["hash", "abc"]
    before.ending = .failed (.settings .malformed "configuration file cannot be parsed") ∧
      run .plain before.host entropy .working ["config", "--init"] =
        ⟨.done, "Wrote /home/u/.config/uint160-printer/config.toml\n", "", changed⟩ ∧
      changed.loadFrom .plain path = .ok {} ∧ changed.load .plain = .ok {} ∧
      changed.createUserFile = .ok (path, changed) := by
  intro home file directory environment host changed entropy path before
  have hcreate : host.createUserFile = .ok (path, changed) := by decide +kernel
  have hfailed :
      before.ending = .failed (.settings .malformed "configuration file cannot be parsed") := by
    decide +kernel
  have hread : Line.read ["config", "--init"] = .ok ⟨none, false, some (.config true)⟩ := by
    decide
  obtain ⟨_, hagain, ⟨location, hleads, _, hdefaults⟩, _, hruns⟩ :=
    written_settings_restore_defaults .plain host changed path hcreate
  have hlocation : location = file := by
    have hfile : changed.files.locate (changed.startOf path) (Path.parts path) = some file := by
      decide +kernel
    exact Option.some.inj (hleads.symm.trans hfile)
  obtain ⟨hloadFrom, hload⟩ := hdefaults (by rw [hlocation]; decide +kernel)
  have hforeign : ∀ entry ∈ host.environment,
      ¬ Variables.ownWords <+: entry.1.toList.map Char.toLower := by decide +kernel
  have hsystem : changed.pathExists Host.systemFile = false := by decide +kernel
  obtain ⟨_, _, hafter⟩ := hruns entropy _ _ hread ⟨rfl, rfl⟩
  exact ⟨hfailed, hafter _ (Or.inl ⟨_, _, hfailed⟩), hloadFrom,
    hload hforeign (Or.inl (Or.inl hsystem)), hagain⟩

end Ident160
