import Ident160.Proofs.Fields
import Ident160.Proofs.Results
import Ident160.Settings.Save

/-!
What writing a file does to a host. Directories are made only where nothing stands, and the file
is written at one location, which is no directory. What is a directory stays one, so a path that
leads to the location while the file is written leads there afterwards.
-/

namespace Ident160

namespace Path

variable {directory path : String}

theorem parts_eq (path : String) :
    parts path = ((Account.fields (· = '/') path.toList).filter
      fun part => !part.isEmpty && part ≠ ['.']).map String.ofList := by
  rw [parts, slashParts_eq_fields]

theorem toList_append_slash (directory path : String) :
    (directory ++ "/" ++ path).toList = directory.toList ++ '/' :: path.toList := by
  rw [String.toList_append, String.toList_append, List.append_assoc]
  rfl

theorem parts_append_slash (directory path : String) :
    parts (directory ++ "/" ++ path) = parts directory ++ parts path := by
  simp only [parts_eq]
  rw [toList_append_slash, Account.fields_append (decide_eq_true rfl), List.filter_append,
    List.map_append]

theorem parts_slash (directory : String) : parts (directory ++ "/") = parts directory := by
  have hnone : parts "" = [] := by decide
  rw [← String.append_empty (s := directory ++ "/"), parts_append_slash, hnone, List.append_nil]

/-- A relative path goes on from the directory, however the directory is spelled. -/
theorem join_cases (directory : String) (hrelative : isAbsolute path = false) :
    directory = "" ∧ join directory path = path ∨
      (∃ before, directory = before ++ "/" ∧ join directory path = before ++ "/" ++ path) ∨
      directory ≠ "" ∧ join directory path = directory ++ "/" ++ path := by
  by_cases hempty : directory = ""
  · left
    refine ⟨hempty, ?_⟩
    rw [join, hrelative, hempty]
    rfl
  · right
    have hfull : directory.isEmpty = false := by simpa using hempty
    by_cases hlast : directory.toList.getLast? = some '/'
    · left
      obtain ⟨before, hbefore⟩ := List.getLast?_eq_some_iff.mp hlast
      have hdirectory : directory = String.ofList before ++ "/" := by
        rw [← String.toList_inj, hbefore, String.toList_append, String.toList_ofList]
        rfl
      refine ⟨String.ofList before, hdirectory, ?_⟩
      rw [join, hrelative, hfull, ← hdirectory]
      simp [hlast]
    · right
      refine ⟨hempty, ?_⟩
      rw [join, hrelative, hfull]
      simp [hlast]

/-- A relative path adds its parts to those of the directory. -/
theorem parts_join (hrelative : isAbsolute path = false) :
    parts (join directory path) = parts directory ++ parts path := by
  rcases join_cases directory hrelative with
    ⟨rfl, hjoin⟩ | ⟨before, rfl, hjoin⟩ | ⟨_, hjoin⟩
  · rw [hjoin]
    rfl
  · rw [hjoin, parts_append_slash, parts_slash]
  · rw [hjoin, parts_append_slash]

theorem isAbsolute_append (h : path ≠ "") (behind : String) :
    isAbsolute (path ++ behind) = isAbsolute path := by
  obtain ⟨c, cs, hpath⟩ := List.exists_cons_of_ne_nil (mt String.toList_eq_nil_iff.mp h)
  rw [isAbsolute, isAbsolute, String.toList_append, hpath]
  rfl

theorem isAbsolute_join (hrelative : isAbsolute path = false) :
    isAbsolute (join directory path) = isAbsolute directory := by
  rcases join_cases directory hrelative with
    ⟨rfl, hjoin⟩ | ⟨before, rfl, hjoin⟩ | ⟨hne, hjoin⟩
  · rw [hjoin, hrelative]
    rfl
  · have hne : before ++ "/" ≠ "" := by simp
    rw [hjoin, isAbsolute_append hne]
  · rw [hjoin, String.append_assoc, isAbsolute_append hne]

theorem join_ne_empty (directory : String) (hne : path ≠ "") : join directory path ≠ "" := by
  unfold join
  split
  · exact hne
  · split <;> simp [hne]

theorem asksForDirectory_append_slash (directory path : String) :
    asksForDirectory (directory ++ "/" ++ path) = asksForDirectory path := by
  simp only [asksForDirectory, slashParts_eq_fields]
  rw [toList_append_slash, Account.fields_append (decide_eq_true rfl), List.getLast?_append,
    List.getLast?_eq_some_getLast (Account.fields_ne_nil path.toList), Option.some_or]

theorem asksForDirectory_join (hrelative : isAbsolute path = false) :
    asksForDirectory (join directory path) = asksForDirectory path := by
  rcases join_cases directory hrelative with ⟨_, hjoin⟩ | ⟨before, _, hjoin⟩ | ⟨_, hjoin⟩
  · rw [hjoin]
  · rw [hjoin, asksForDirectory_append_slash]
  · rw [hjoin, asksForDirectory_append_slash]

end Path

namespace FileTree

/-- A tree has what another one has, and directories where the other has nothing. -/
def Extends (before after : FileTree) : Prop :=
  ∀ location, after.get? location = before.get? location ∨
    before.get? location = none ∧ after.get? location = some .directory

theorem Extends.refl (tree : FileTree) : Extends tree tree := fun _ => Or.inl rfl

theorem Extends.trans {first second third : FileTree} (h : Extends first second)
    (h' : Extends second third) : Extends first third := by
  intro location
  rcases h' location with heq | ⟨hnone, hmade⟩
  · rw [heq]
    exact h location
  · rcases h location with heq' | ⟨_, hdirectory⟩
    · exact Or.inr ⟨heq' ▸ hnone, hmade⟩
    · simp [hdirectory] at hnone

theorem extends_put_directory {tree : FileTree} {location : Location}
    (hnone : tree.get? location = none) : Extends tree (tree.put location .directory) := by
  intro other
  by_cases heq : other = location
  · subst heq
    have hne : other ≠ [] := by
      rintro rfl
      simp [get?] at hnone
    exact Or.inr ⟨hnone, get?_put_self tree other .directory hne⟩
  · exact Or.inl (get?_put_of_ne tree .directory heq)

def left : Except (FileFault × FileTree) FileTree → FileTree
  | .ok tree => tree
  | .error (_, tree) => tree

/-- What has been made stood nowhere before, also where something then stood in the way. -/
theorem extends_left_makeDirectories (before : FileTree) (start : Location) (making : Bool)
    (parts : List String) : Extends before (left (before.makeDirectories start making parts)) := by
  induction parts generalizing before start making with
  | nil => exact Extends.refl before
  | cons part parts ih =>
    simp only [makeDirectories]
    split
    · exact ih before (follow start part) making
    · exact Extends.refl before
    · next hnone => exact (extends_put_directory hnone).trans (ih _ (follow start part) true)

/-- Making directories changes nothing that was there. -/
theorem extends_makeDirectories {before after : FileTree} {start : Location} {making : Bool}
    {parts : List String} (h : before.makeDirectories start making parts = .ok after) :
    Extends before after := by
  have hleft := extends_left_makeDirectories before start making parts
  rw [h] at hleft
  exact hleft

/-- No file of the one tree is another in the other. -/
theorem Extends.file_iff {before after : FileTree} (h : Extends before after) (location : Location)
    (text : String) :
    after.get? location = some (.file text) ↔ before.get? location = some (.file text) := by
  rcases h location with heq | ⟨hnone, hmade⟩
  · rw [heq]
  · simp [hnone, hmade]

variable {before after : FileTree} {location : Location} {text : String}

/-- A file is written in place of a file or of nothing; a device takes the text and stays. -/
theorem writeAt_eq_ok (h : before.writeAt location text = .ok after) :
    before.get? location ≠ some .directory ∧
      (∀ other, other ≠ location → after.get? other = before.get? other) ∧
      (after.get? location = some (.file text) ∨
        before.get? location = some .special ∧ after = before) := by
  unfold writeAt at h
  split at h
  · cases h
  · next hspecial =>
    obtain rfl := Except.ok.inj h
    simp [hspecial]
  · next hdirectory _ =>
    obtain rfl := Except.ok.inj h
    have hne : location ≠ [] := by
      rintro rfl
      exact hdirectory rfl
    exact ⟨hdirectory, fun other hother => get?_put_of_ne before _ hother,
      Or.inl (get?_put_self before location _ hne)⟩

theorem directory_writeAt (h : before.writeAt location text = .ok after) (place : Location)
    (hplace : before.get? place = some .directory) : after.get? place = some .directory := by
  obtain ⟨hdirectory, helsewhere, _⟩ := writeAt_eq_ok h
  have hne : place ≠ location := by
    rintro rfl
    exact hdirectory hplace
  rw [helsewhere place hne, hplace]

theorem put_put (tree : FileTree) (location : Location) (node : FileNode) :
    (tree.put location node).put location node = tree.put location node := by
  simp [put, List.filter_filter]

/-- To write the same text again changes nothing. -/
theorem writeAt_again (h : before.writeAt location text = .ok after) :
    after.writeAt location text = .ok after := by
  unfold writeAt at h
  split at h
  · cases h
  · next hspecial =>
    obtain rfl := Except.ok.inj h
    rw [writeAt, hspecial]
  · next hdirectory _ =>
    obtain rfl := Except.ok.inj h
    have hne : location ≠ [] := by
      rintro rfl
      exact hdirectory rfl
    rw [writeAt, get?_put_self before location _ hne]
    exact congrArg Except.ok (put_put before location _)

/-- Where the directories have been made there are none to make, as long as they stay. -/
theorem makeDirectories_made {made : FileTree} {start : Location} {making again : Bool}
    {parts : List String} (h : before.makeDirectories start making parts = .ok made)
    (hkeep : ∀ place, made.get? place = some .directory → after.get? place = some .directory) :
    after.makeDirectories start again parts = .ok after := by
  induction parts generalizing before start making with
  | nil => rfl
  | cons part parts ih =>
    -- whether the next directory stood there or is made now, it is one in `made`
    have hnext : ∀ (tree : FileTree) (making : Bool),
        tree.makeDirectories (follow start part) making parts = .ok made →
        tree.get? (follow start part) = some .directory →
        after.makeDirectories start again (part :: parts) = .ok after := by
      intro tree making hmade hdirectory
      have hstays : made.get? (follow start part) = some .directory := by
        rcases extends_makeDirectories hmade (follow start part) with heq | ⟨hnone, _⟩
        · rw [heq, hdirectory]
        · simp [hdirectory] at hnone
      simp only [makeDirectories, hkeep _ hstays]
      exact ih hmade
    simp only [makeDirectories] at h
    split at h
    · next hdirectory => exact hnext before making h hdirectory
    · cases h
    · next hnone =>
      have hne : follow start part ≠ [] := by
        intro hroot
        simp [get?, hroot] at hnone
      exact hnext _ true h (get?_put_self before _ .directory hne)

/-- What is a directory in one tree has to be one in the other for paths to lead the same way. -/
theorem locate_mono {start : Location} {parts : List String}
    (hkeep : ∀ place, before.get? place = some .directory → after.get? place = some .directory)
    (h : before.locate start parts = some location) : after.locate start parts = some location := by
  induction parts generalizing start with
  | nil => exact h
  | cons part parts ih =>
    rw [locate] at h ⊢
    split at h
    · next hdirectory =>
      rw [if_pos (hkeep start hdirectory)]
      exact ih h
    · cases h

end FileTree

namespace Host

/-- The location that a path leads to. Nothing need stand there. -/
def Leads (host : Host) (path : String) (location : Location) : Prop :=
  host.files.locate (host.startOf path) (Path.parts path) = some location

/-- A host becomes another one by writing at a location. Elsewhere all is as before, but for
directories where nothing stood. -/
structure Writes (before after : Host) (location : Location) : Prop where
  surroundings : after = { before with files := after.files }
  noDirectory : before.files.get? location ≠ some .directory
  elsewhere : ∀ other, other ≠ location →
    after.files.get? other = before.files.get? other ∨
      before.files.get? other = none ∧ after.files.get? other = some .directory

/-- No file but the one written is another than before. -/
theorem Writes.file_iff {before after : Host} {location other : Location}
    (h : Writes before after location) (hother : other ≠ location) (text : String) :
    after.files.get? other = some (.file text) ↔ before.files.get? other = some (.file text) := by
  rcases h.elsewhere other hother with heq | ⟨hnone, hmade⟩
  · rw [heq]
  · simp [hnone, hmade]

variable {host changed : Host} {directory name path text : String}

/-- A host becomes another one by directories that are made where nothing stood. -/
structure Keeps (before after : Host) : Prop where
  surroundings : after = { before with files := after.files }
  files : FileTree.Extends before.files after.files

theorem Keeps.refl (host : Host) : Keeps host host := ⟨rfl, FileTree.Extends.refl host.files⟩

/-- Directories are made, and then the file is written where its name leads from them. -/
theorem write_steps (h : host.write directory name text = .ok changed) :
    ∃ made location,
      host.files.makeDirectories (host.startOf directory) false (Path.parts directory) = .ok made ∧
      made.locate (host.startOf directory) (Path.parts directory ++ [name]) = some location ∧
      made.writeAt location text = .ok changed.files ∧
      changed = { host with files := changed.files } := by
  dsimp only [write] at h
  split at h
  · cases h
  · next made hmade =>
    split at h
    · cases h
    · next location hlocate =>
      split at h
      · cases h
      · next written hwritten =>
        obtain rfl := Except.ok.inj h
        exact ⟨made, location, hmade, hlocate, hwritten, rfl⟩

/-- Where a file cannot be written, no more than directories have been made for it. -/
theorem write_eq_error {fault : FileFault}
    (h : host.write directory name text = .error (fault, changed)) : Keeps host changed := by
  have hmakes := FileTree.extends_left_makeDirectories host.files (host.startOf directory) false
    (Path.parts directory)
  dsimp only [write] at h
  split at h
  · next files hfiles =>
    obtain ⟨rfl, rfl⟩ := Prod.mk.inj (Except.error.inj h)
    rw [hfiles] at hmakes
    exact ⟨rfl, hmakes⟩
  · next made hmade =>
    rw [hmade] at hmakes
    split at h
    · obtain ⟨rfl, rfl⟩ := Prod.mk.inj (Except.error.inj h)
      exact ⟨rfl, hmakes⟩
    · split at h
      · obtain ⟨rfl, rfl⟩ := Prod.mk.inj (Except.error.inj h)
        exact ⟨rfl, hmakes⟩
      · cases h

/-- What is written can be found by the name of the directory and its own, and is what was to be
written unless a device took it. -/
theorem write_eq_ok (h : host.write directory name text = .ok changed) :
    ∃ location, Writes host changed location ∧
      changed.files.locate (host.startOf directory) (Path.parts directory ++ [name]) =
        some location ∧
      (changed.files.get? location = some (.file text) ∨
        host.files.get? location = some .special ∧
          changed.files.get? location = some .special) := by
  obtain ⟨made, location, hmade, hlocate, hafter, hsurroundings⟩ := write_steps h
  have hextends := FileTree.extends_makeDirectories hmade
  obtain ⟨hdirectory, helsewhere, hwritten⟩ := FileTree.writeAt_eq_ok hafter
  have hbefore : made.get? location = host.files.get? location := by
    rcases hextends location with heq | ⟨_, hdir⟩
    · exact heq
    · exact absurd hdir hdirectory
  refine ⟨location, ⟨hsurroundings, hbefore ▸ hdirectory, ?_⟩,
    FileTree.locate_mono (FileTree.directory_writeAt hafter) hlocate, ?_⟩
  · intro other hother
    rw [helsewhere other hother]
    exact hextends other
  · rcases hwritten with hfile | ⟨hspecial, hsame⟩
    · exact Or.inl hfile
    · exact Or.inr ⟨hbefore ▸ hspecial, hsame ▸ hspecial⟩

/-- Writing the same once more changes nothing. -/
theorem write_again (h : host.write directory name text = .ok changed) :
    changed.write directory name text = .ok changed := by
  obtain ⟨made, location, hmade, hlocate, hafter, hsurroundings⟩ := write_steps h
  have hkeep := FileTree.directory_writeAt hafter
  have hstart : changed.startOf directory = host.startOf directory := by
    rw [startOf, startOf, hsurroundings]
  have hmakes : changed.files.makeDirectories (host.startOf directory) false
      (Path.parts directory) = .ok changed.files :=
    FileTree.makeDirectories_made hmade hkeep
  have hwrites := FileTree.writeAt_again hafter
  simp only [write, hstart, hmakes, FileTree.locate_mono hkeep hlocate, hwrites]

/-- The path that is told is the one the user's settings are read from, and leads to what has been
written. -/
theorem createUserFile_eq_ok (h : host.createUserFile = .ok (path, changed)) :
    host.userFile? = some path ∧
      ∃ location, changed.Leads path location ∧ Writes host changed location ∧
        (changed.files.get? location = some (.file ({} : Settings).fileText) ∨
          host.files.get? location = some .special ∧
            changed.files.get? location = some .special) := by
  unfold createUserFile at h
  split at h
  · cases h
  · next directory hdirectory =>
    obtain ⟨saved, hsaved, htold⟩ := map_eq_ok_iff.mp h
    obtain ⟨rfl, rfl⟩ := Prod.mk.inj htold
    obtain ⟨location, hwrites, hlocate, hwritten⟩ :=
      write_eq_ok (mapError_eq_ok_iff.mp hsaved)
    have hrelative : Path.isAbsolute settingsFile = false := by decide
    have hname : Path.parts settingsFile = [settingsFile] := by decide
    refine ⟨?_, location, ?_, hwrites, hwritten⟩
    · rw [userFile?, hdirectory]
      rfl
    · have hstart : saved.startOf (Path.join directory settingsFile) = host.startOf directory := by
        rw [startOf, startOf, Path.isAbsolute_join hrelative, hwrites.surroundings]
      rw [Leads, hstart, Path.parts_join hrelative, hname]
      exact hlocate

/-- Where the settings cannot be written, no file is another than before. -/
theorem createUserFile_eq_error {fault : SaveFault}
    (h : host.createUserFile = .error (fault, changed)) : Keeps host changed := by
  unfold createUserFile at h
  split at h
  · obtain ⟨_, rfl⟩ := Prod.mk.inj (Except.error.inj h)
    exact Keeps.refl host
  · next directory _ =>
    cases hwrite : host.write directory settingsFile ({} : Settings).fileText with
    | error found =>
      obtain ⟨cause, left⟩ := found
      rw [writeDefaults, hwrite] at h
      obtain ⟨_, rfl⟩ := Prod.mk.inj (Except.error.inj h)
      exact write_eq_error hwrite
    | ok saved =>
      rw [writeDefaults, hwrite] at h
      cases h

/-- A settings file that has been written is written again as it is. -/
theorem createUserFile_again (h : host.createUserFile = .ok (path, changed)) :
    changed.createUserFile = .ok (path, changed) := by
  unfold createUserFile at h
  split at h
  · cases h
  · next directory hdirectory =>
    obtain ⟨saved, hsaved, htold⟩ := map_eq_ok_iff.mp h
    obtain ⟨rfl, rfl⟩ := Prod.mk.inj htold
    have hwritten := mapError_eq_ok_iff.mp hsaved
    obtain ⟨_, _, _, _, _, hsurroundings⟩ := write_steps hwritten
    have hsame : saved.userDirectory? = some directory := by
      rw [hsurroundings]
      exact hdirectory
    rw [createUserFile, hsame]
    exact map_eq_ok_iff.mpr ⟨saved, mapError_eq_ok_iff.mpr (write_again hwritten), rfl⟩

end Host

end Ident160
