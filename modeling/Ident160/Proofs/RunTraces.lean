import Ident160.Proofs.DocumentPlaces
import Ident160.Proofs.RunCourses

/-!
What a run leaves behind. A run that fails has written nothing but the error, and no file has
another content than before; the only file that a run writes is that of the settings. A run crashes
on a working sink exactly if it has to load settings with an array beyond the bound on arrays, and
then an index in one of the files or variables is too great.
-/

namespace Ident160

open Document (Value)

namespace Host

/-- Every file is as before, and no other has come. -/
def SameFiles (before after : Host) : Prop :=
  ∀ location text,
    after.files.get? location = some (.file text) ↔ before.files.get? location = some (.file text)

theorem SameFiles.refl (host : Host) : SameFiles host host := fun _ _ => Iff.rfl

theorem Keeps.sameFiles {before after : Host} (h : Keeps before after) : SameFiles before after :=
  h.files.file_iff

variable {host : Host} {loader : Loader} {chosen : Option String}

def chosenLayers (host : Host) (loader : Loader) (chosen : Option String) :
    List (Except SettingsFault Document.Entries) :=
  match chosen with
  | some path => [host.requiredEntries loader path]
  | none => host.layers loader

theorem settings_eq_ofLayers (host : Host) (loader : Loader) (chosen : Option String) :
    host.settings loader chosen =
      Settings.ofLayers loader.capacity (host.chosenLayers loader chosen) := by
  cases chosen <;> rfl

/-- A layer on its own is never too long. -/
theorem chosenLayers_ne_overlong {fault : SettingsFault}
    (h : .error fault ∈ host.chosenLayers loader chosen) : fault ≠ .overlong := by
  rintro rfl
  cases chosen with
  | some path =>
    rw [chosenLayers, List.mem_singleton] at h
    exact requiredEntries_ne_overlong h.symm
  | none =>
    simp only [chosenLayers, layers, List.mem_cons, List.not_mem_nil, or_false] at h
    rcases h with hsystem | huser | hvariables
    · exact optionalEntries_ne_overlong hsystem.symm
    · exact userEntries_ne_overlong huser.symm
    · cases hvariables

/-- Settings are too long only by an index in one of the layers. -/
theorem exists_index_of_overlong (h : host.settings loader chosen = .error .overlong) :
    ∃ es, .ok es ∈ host.chosenLayers loader chosen ∧ ∃ entry ∈ es, ∃ i,
      .index i ∈ Document.KeyPath.ofName entry.1 ∧ loader.capacity < Value.itemsFor i := by
  rw [settings_eq_ofLayers] at h
  exact Settings.exists_index_of_overlong (fun _ => chosenLayers_ne_overlong) h

end Host

/-! ### Runs on a working sink -/

/-- A failed run has written nothing, and tells its fault behind one word. -/
theorem run_of_failed {libraries : Libraries} {host left : Host} {entropy : ChaCha.Key}
    {args : List String} {invocation : Invocation} {fault : RunFault}
    (hread : Line.read args = .ok invocation) (hquiet : host.IsQuiet)
    (h : (libraries.perform entropy invocation).StopsAt host (.failed fault) left) (sink : Sink) :
    run libraries host entropy sink args =
      ⟨.failed fault, "", "Error: " ++ (fault.message ++ "\n"), left⟩ := by
  obtain ⟨log, hrun⟩ := run_of_stopsAt hread h
  rw [hrun]
  simp only [Session.outcome, Stop.ending, libraries.logText_of_unset hquiet,
    libraries.endingText_failed, String.empty_append, String.append_assoc]

/-- A run on a working sink is done, has failed before it wrote anything, or has crashed over
settings that are too long. -/
theorem run_working_cases (libraries : Libraries) {host : Host} (entropy : ChaCha.Key)
    {args : List String} {invocation : Invocation} (hread : Line.read args = .ok invocation)
    (hquiet : host.IsQuiet) :
    (∃ text, run libraries host entropy .working args = ⟨.done, text, "", host⟩ ∧
        ¬ libraries.Overlong host invocation) ∨
      (∃ text path changed, run libraries host entropy .working args = ⟨.done, text, "", changed⟩ ∧
        ¬ libraries.Overlong host invocation ∧ invocation.Saves ∧
        host.createUserFile = .ok (path, changed)) ∨
      (∃ fault left, (∀ sink, run libraries host entropy sink args =
          ⟨.failed fault, "", "Error: " ++ (fault.message ++ "\n"), left⟩) ∧
        ¬ libraries.Overlong host invocation ∧ host.SameFiles left) ∨
      ∃ told, run libraries host entropy .working args = ⟨.crashed .overlong, "", told, host⟩ ∧
        libraries.Overlong host invocation := by
  cases libraries.course host entropy hread with
  | displayed text hindirect hfits hcomes =>
    exact Or.inl ⟨"" ++ text, run_of_output hread hquiet hcomes fun _ => rfl, hfits⟩
  | direct text stop hdirect hstop hcomes =>
    exact Or.inl ⟨"" ++ text, run_of_output hread hquiet hcomes fun _ => rfl,
      libraries.not_overlong_of_not_loads hdirect.not_loads⟩
  | saved path changed hsaves hcreate hcomes =>
    exact Or.inr (Or.inl ⟨"" ++ ("Wrote " ++ path ++ "\n"), path, changed,
      run_of_output hread hquiet hcomes fun _ => rfl,
      libraries.not_overlong_of_not_loads hsaves.not_loads, hsaves, hcreate⟩)
  | unsaved fault left hsaves hcreate hstops =>
    exact Or.inr (Or.inr (Or.inl ⟨_, left, run_of_failed hread hquiet hstops,
      libraries.not_overlong_of_not_loads hsaves.not_loads,
      (Host.createUserFile_eq_error hcreate).sameFiles⟩))
  | failed fault hfits hstops =>
    exact Or.inr (Or.inr (Or.inl ⟨fault, host, run_of_failed hread hquiet hstops, hfits,
      Host.SameFiles.refl host⟩))
  | overlong hoverlong hstops =>
    obtain ⟨log, hrun⟩ := run_of_stopsAt hread hstops
    exact Or.inr (Or.inr (Or.inr ⟨_, hrun .working, hoverlong⟩))

/-! ### Traces -/

/-- A command line that is carried out on a working sink, with a log that is not shown, succeeds or
fails, unless it has to load settings with an array beyond the bound: then it crashes. If it fails,
nothing is written but the error, every file is as before, and the run is the same for every sink:
not even a sink that refuses all output is noticed. If it succeeds, there is no error text. Files
are other ones only where the settings file was to be written, and then it is only the user's. -/
theorem failed_runs_leave_no_trace (libraries : Libraries) (host : Host) (entropy : ChaCha.Key)
    (args : List String) (invocation : Invocation) (hread : Line.read args = .ok invocation)
    (hquiet : host.IsQuiet) :
    let outcome := run libraries host entropy .working args
    ((∃ crash, outcome.ending = .crashed crash) ↔ libraries.Overlong host invocation) ∧
      (libraries.Overlong host invocation →
        ∃ es, .ok es ∈ host.chosenLayers libraries.loader invocation.configPath ∧
          ∃ entry ∈ es, ∃ i, .index i ∈ Document.KeyPath.ofName entry.1 ∧
            libraries.loader.capacity < Value.itemsFor i) ∧
      (¬ libraries.Overlong host invocation →
        outcome.ending.exitCode = 0 ∨ outcome.ending.exitCode = 1) ∧
      (outcome.ending.exitCode = 1 →
        outcome.written = "" ∧ (∃ message, outcome.errorWritten = "Error: " ++ message) ∧
          host.SameFiles outcome.host ∧ ∀ sink, run libraries host entropy sink args = outcome) ∧
      (outcome.ending.exitCode = 0 → outcome.errorWritten = "") ∧
      (host.SameFiles outcome.host ∨
        outcome.ending.exitCode = 0 ∧ invocation.Saves ∧
          ∃ path location, host.userFile? = some path ∧ outcome.host.Leads path location ∧
            host.Writes outcome.host location ∧
            ∀ other text, other ≠ location →
              (outcome.host.files.get? other = some (.file text) ↔
                host.files.get? other = some (.file text))) := by
  intro outcome
  rcases run_working_cases libraries entropy hread hquiet with
    ⟨text, hrun, hfits⟩ | ⟨text, path, changed, hrun, hfits, hsaves, hcreate⟩ |
      ⟨fault, left, hrun, hfits, hsame⟩ | ⟨told, hrun, hoverlong⟩
  · have houtcome : outcome = _ := hrun
    rw [houtcome]
    exact ⟨iff_of_false nofun hfits, fun h => absurd h hfits, fun _ => Or.inl rfl, nofun,
      fun _ => rfl, Or.inl (Host.SameFiles.refl host)⟩
  · have houtcome : outcome = _ := hrun
    obtain ⟨hpath, location, hleads, hwrites, _⟩ := Host.createUserFile_eq_ok hcreate
    rw [houtcome]
    refine ⟨iff_of_false nofun hfits, fun h => absurd h hfits, fun _ => Or.inl rfl, nofun,
      fun _ => rfl, Or.inr ⟨rfl, hsaves, path, location, hpath, hleads, hwrites, ?_⟩⟩
    intro other text hother
    exact hwrites.file_iff hother text
  · have houtcome : outcome = _ := hrun .working
    rw [houtcome]
    exact ⟨iff_of_false nofun hfits, fun h => absurd h hfits, fun _ => Or.inr rfl,
      fun _ => ⟨rfl, ⟨_, rfl⟩, hsame, hrun⟩, nofun, Or.inl hsame⟩
  · have houtcome : outcome = _ := hrun
    rw [houtcome]
    exact ⟨iff_of_true ⟨_, rfl⟩ hoverlong, fun h => Host.exists_index_of_overlong h.2,
      fun h => absurd hoverlong h, nofun, nofun, Or.inl (Host.SameFiles.refl host)⟩

/-- A file stands where a directory of the settings would have to be made, behind one that is made
on the way. Elsewhere they are written, and a file in the home directory stays. -/
theorem settings_written_or_no_trace :
    let note : Location × FileNode := (["home", "u", "note"], .file "x")
    let home := [note, (["home", "u"], .directory), (["home"], .directory)]
    let free : Host := { environment := [("HOME", "/home/u")], files := ⟨home⟩ }
    let blocked : Host := { environment := [("HOME", "/home/u/new/../note")], files := ⟨home⟩ }
    let entropy : ChaCha.Key := Vector.replicate 8 0
    let args := ["config", "--init"]
    let done := run .plain free entropy .working args
    let failed := run .plain blocked entropy .working args
    Line.read args = .ok ⟨none, false, some (.config true)⟩ ∧ free.IsQuiet ∧ blocked.IsQuiet ∧
      done.ending.exitCode = 0 ∧ done.errorWritten = "" ∧
      done.host.files.get? ["home", "u", "note"] = some (.file "x") ∧
      failed.ending.exitCode = 1 ∧ failed.written = "" ∧ blocked.SameFiles failed.host ∧
      failed.host.files.get? ["home", "u", "new"] = some .directory ∧
      ∀ sink, run .plain blocked entropy sink args = failed := by
  intro note home free blocked entropy args done failed
  have hread : Line.read args = .ok ⟨none, false, some (.config true)⟩ := by decide +kernel
  have hdone : done.ending.exitCode = 0 := by decide +kernel
  have hfailed : failed.ending.exitCode = 1 := by decide +kernel
  have hnote : done.host.files.get? ["home", "u", "note"] = some (.file "x") := by decide +kernel
  have hnew : failed.host.files.get? ["home", "u", "new"] = some .directory := by decide +kernel
  obtain ⟨_, _, _, _, hquiet, _⟩ := failed_runs_leave_no_trace .plain free entropy args _ hread rfl
  obtain ⟨_, _, _, htrace, _⟩ := failed_runs_leave_no_trace .plain blocked entropy args _ hread rfl
  obtain ⟨hempty, _, hsame, hsinks⟩ := htrace hfailed
  exact ⟨hread, rfl, rfl, hdone, hquiet hdone, hnote, hfailed, hempty, hsame, hnew, hsinks⟩

/-- A variable names an item that no array has room for, of something that is no setting. -/
theorem great_index_crashes :
    let host : Host := { environment := [("UINT160_PRINTER_A[9223372036854775806]", "1")] }
    let entropy : ChaCha.Key := Vector.replicate 8 0
    let outcome := run .plain host entropy .working ["hash", "abc"]
    Line.read ["hash", "abc"] = .ok ⟨none, false, some (.hash "abc")⟩ ∧ host.IsQuiet ∧
      host.load .plain = .error .overlong ∧ outcome.ending = .crashed .overlong ∧
      outcome.ending.exitCode = 101 := by
  refine ⟨by decide, rfl, ?_⟩
  decide +kernel

end Ident160
