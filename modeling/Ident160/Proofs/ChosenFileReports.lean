import Ident160.Proofs.DocumentPlaces
import Ident160.Proofs.RunCourses

/-!
What the report on the settings says about a chosen file, and what is loaded from it. The report
looks at the path alone, the loader also beside it. So a file that the report misses is loaded
all the same, exactly if there is nothing at the path and a document with one more extension is
beside it.
-/

namespace Ident160

open Document (Entries)

namespace Host

/-- The path itself leads nowhere, and this is the first document beside it. -/
structure OnlyBeside (host : Host) (loader : Loader) (path : String) (format : DocumentFormat)
    (text : String) : Prop where
  absent : host.find path = none
  first : host.FirstBeside loader path format text

def chosenReport (path status : String) : String :=
  reportTitle ++ ("Config file (--config): " ++ path ++ "\n  Status: " ++ status ++ "\n")

variable {host : Host} {path : String}

theorem settingsReport_of_found (h : host.find path ≠ none) :
    host.settingsReport (some path) = chosenReport path "✓ Found" := by
  have hexists : host.pathExists path = true := Option.isSome_iff_ne_none.mpr h
  rw [settingsReport, fileLines, hexists]
  rfl

theorem settingsReport_of_absent (h : host.find path = none) :
    host.settingsReport (some path) = chosenReport path "✗ Not found" := by
  have hmissing : host.pathExists path = false := by
    rw [pathExists, h]
    rfl
  rw [settingsReport, fileLines, hmissing]
  rfl

theorem chosenReport_inj {status other : String} :
    chosenReport path status = chosenReport path other ↔ status = other := by
  simp [chosenReport]

/-- A chosen file is reported missing exactly if its path leads nowhere. -/
theorem settingsReport_eq_absent_iff :
    host.settingsReport (some path) = chosenReport path "✗ Not found" ↔ host.find path = none := by
  constructor
  · intro h
    by_contra hfound
    rw [settingsReport_of_found hfound, chosenReport_inj] at h
    exact absurd h (by decide)
  · exact settingsReport_of_absent

/-- Where the path leads nowhere, settings are loaded from the first document beside it. -/
theorem loadFrom_of_absent {loader : Loader} (habsent : host.find path = none)
    {settings : Settings} :
    host.loadFrom loader path = .ok settings ↔
      ∃ format text es, host.FirstBeside loader path format text ∧
        format.read (dropMark text) = some es ∧
        Settings.ofLayers loader.capacity [.ok es] = .ok settings := by
  simp only [loadFrom_eq_ok_iff, requiredEntries_eq_ok_iff, document?_of_absent habsent]
  constructor
  · rintro ⟨es, ⟨format, content, ⟨text, hbeside, rfl⟩, hread⟩, hlayers⟩
    exact ⟨format, text, es, hbeside, hread, hlayers⟩
  · rintro ⟨format, text, es, hbeside, hread, hlayers⟩
    exact ⟨es, ⟨format, dropMark text, ⟨text, hbeside, rfl⟩, hread⟩, hlayers⟩

end Host

/-- The subcommand for settings writes the report, and nothing else. -/
theorem written_of_config_report {libraries : Libraries} {host : Host} {entropy : ChaCha.Key}
    {args : List String} {path : Option String}
    (hread : Line.read args = .ok ⟨path, false, some (.config false)⟩) :
    (run libraries host entropy .working args).written = host.settingsReport path := by
  rw [run_eq hread]
  exact String.empty_append

/-- Settings are loaded from a chosen file that is reported missing exactly if the path leads
nowhere and the first document beside it, with one more extension, is one of settings. Hence the
report finds the file of every command that gets done with it, but for those of such documents.
The formats and the order in which their extensions are tried are those of any loader. -/
theorem missing_file_loads_iff_beside (libraries : Libraries) (host : Host) (path : String) :
    (∀ settings : Settings,
      host.settingsReport (some path) = Host.chosenReport path "✗ Not found" ∧
          host.loadFrom libraries.loader path = .ok settings ↔
        ∃ format text es, host.OnlyBeside libraries.loader path format text ∧
          format.read (Host.dropMark text) = some es ∧
          Settings.ofLayers libraries.loader.capacity [.ok es] = .ok settings) ∧
    ∀ (entropy : ChaCha.Key) (args others : List String) (command : Command),
      Line.read args = .ok ⟨some path, false, some (.config false)⟩ →
      Line.read others = .ok ⟨some path, false, some command⟩ →
      (∀ init, command ≠ .config init) →
      (run libraries host entropy .working others).ending = .done →
      ((run libraries host entropy .working args).written = Host.chosenReport path "✓ Found" ↔
        ¬ ∃ format text, host.OnlyBeside libraries.loader path format text) := by
  refine ⟨?_, ?_⟩
  · intro settings
    rw [Host.settingsReport_eq_absent_iff]
    constructor
    · rintro ⟨habsent, hloaded⟩
      obtain ⟨format, text, es, hbeside, hread⟩ := (Host.loadFrom_of_absent habsent).mp hloaded
      exact ⟨format, text, es, ⟨habsent, hbeside⟩, hread⟩
    · rintro ⟨format, text, es, hbeside, hread⟩
      have hloaded := (Host.loadFrom_of_absent hbeside.absent).mpr
        ⟨format, text, es, hbeside.first, hread⟩
      exact ⟨hbeside.absent, hloaded⟩
  · intro entropy args others command hargs hothers hconfig hdone
    obtain ⟨settings, _, hsettings, _⟩ := found_of_done hothers hconfig hdone
    have hloaded : host.loadFrom libraries.loader path = .ok settings := hsettings
    rw [written_of_config_report hargs]
    by_cases habsent : host.find path = none
    · obtain ⟨format, text, _, hbeside, _⟩ := (Host.loadFrom_of_absent habsent).mp hloaded
      have hwrong : Host.chosenReport path "✗ Not found" ≠ Host.chosenReport path "✓ Found" := by
        rw [ne_eq, Host.chosenReport_inj]
        decide
      rw [Host.settingsReport_of_absent habsent]
      simp only [hwrong, false_iff, not_not]
      exact ⟨format, text, habsent, hbeside⟩
    · rw [Host.settingsReport_of_found habsent]
      refine iff_of_true rfl ?_
      rintro ⟨_, _, hbeside⟩
      exact habsent hbeside.absent

/-- A file of exactly the chosen path is reported, and read before one beside it. -/
theorem exact_file_reported :
    let files : FileTree := ⟨[(["a.toml"], .file "[display]\nuppercase = false\n"),
      (["a.toml.toml"], .file "[display]\nuppercase = true\n")]⟩
    let host : Host := { files }
    let entropy : ChaCha.Key := Vector.replicate 8 0
    let args := ["config", "-c", "/a.toml"]
    let others := ["format", "0xA", "0", "0", "0", "0", "-c", "/a.toml"]
    (run .plain host entropy .working others).ending = .done ∧
      (run .plain host entropy .working others).written =
        "0000000a00000000000000000000000000000000\n" ∧
      (run .plain host entropy .working args).written =
        Host.chosenReport "/a.toml" "✓ Found" := by
  intro files host entropy args others
  have hargs : Line.read args = .ok ⟨some "/a.toml", false, some (.config false)⟩ := by
    decide +kernel
  have hothers : Line.read others =
      .ok ⟨some "/a.toml", false, some (.format [10, 0, 0, 0, 0] none)⟩ := by decide +kernel
  have hdone : (run .plain host entropy .working others).ending = .done := by decide +kernel
  have hfound : host.find "/a.toml" ≠ none := by decide +kernel
  obtain ⟨-, hreported⟩ := missing_file_loads_iff_beside .plain host "/a.toml"
  refine ⟨hdone, by decide +kernel, ?_⟩
  refine (hreported entropy args others _ hargs hothers nofun hdone).mpr ?_
  rintro ⟨_, _, hbeside⟩
  exact hfound hbeside.absent

/-- A document is beside the chosen path. It is reported missing, and yet read. -/
theorem document_beside_reported_missing :
    let host : Host :=
      { files := ⟨[(["custom.toml"], .file "[display]\nuppercase = false\n")]⟩ }
    let entropy : ChaCha.Key := Vector.replicate 8 0
    host.settingsReport (some "/custom") = Host.chosenReport "/custom" "✗ Not found" ∧
      host.loadFrom .plain "/custom" = .ok ⟨⟨false, true⟩, ⟨none⟩⟩ ∧
      (run .plain host entropy .working ["config", "--config", "/custom"]).written =
        Host.chosenReport "/custom" "✗ Not found" ∧
      (run .plain host entropy .working
          ["--config", "/custom", "format", "10", "0", "0", "0", "0"]).written =
        "0000000a00000000000000000000000000000000\n" := by
  decide +kernel

end Ident160
