import Ident160.Proofs.Decoding
import Ident160.Settings.Report

/-!
Where the document of a path is found. A regular file that the path leads to decides alone: its
extension is that of a format, or there is no document. Otherwise the extensions of all formats are
tried one after the other, each put behind the name that the path ends with, seen from the root.
-/

namespace Ident160

open Document (Entries)

namespace Host

variable {host : Host} {loader : Loader} {path text : String}

/-- A regular file with this text stands beside what a path names: its name is the one at the end
of the path with one more extension behind it. -/
def StandsBeside (host : Host) (path extension text : String) : Prop :=
  ∃ name location, Path.lastName? (host.partsFromRoot path) = some name ∧
    host.files.locate [] ((host.partsFromRoot path).dropLast ++ [name ++ ("." ++ extension)]) =
      some location ∧
    host.files.get? location = some (.file text)

/-- This is the first file that a loader finds beside what a path names. -/
def FirstBeside (host : Host) (loader : Loader) (path : String) (format : DocumentFormat)
    (text : String) : Prop :=
  ∃ before extension after, loader.tries = before ++ (format, extension) :: after ∧
    host.StandsBeside path extension text ∧
    ∀ earlier ∈ before, ∀ other, ¬ host.StandsBeside path earlier.2 other

theorem text?_eq_some_iff : host.text? path = some text ↔ host.find path = some (.file text) := by
  unfold text?
  split
  · next found hfound => rw [hfound, Option.some.injEq, Option.some.injEq, FileNode.file.injEq]
  · next hother =>
    simp only [reduceCtorEq, false_iff]
    exact hother text

/-- Only a file at the place of the path, with the longer name, counts as one beside it. -/
theorem appendedText?_eq_some_iff {extension : String} :
    host.appendedText? path ("." ++ extension) = some text ↔
      host.StandsBeside path extension text := by
  simp only [appendedText?, Option.bind_eq_bind, Option.bind_eq_some_iff, StandsBeside]
  constructor
  · rintro ⟨name, hname, location, hlocate, htext⟩
    split at htext
    · next found hfound =>
      obtain rfl := Option.some.inj htext
      exact ⟨name, location, hname, hlocate, hfound⟩
    · cases htext
  · rintro ⟨name, location, hname, hlocate, hfile⟩
    exact ⟨name, hname, location, hlocate, by rw [hfile]⟩

theorem appendedText?_eq_none_iff {extension : String} :
    host.appendedText? path ("." ++ extension) = none ↔
      ∀ text, ¬ host.StandsBeside path extension text := by
  simp only [Option.eq_none_iff_forall_ne_some, ne_eq, appendedText?_eq_some_iff]

/-! ### Documents -/

/-- A file of exactly the path is read in the format of its extension. -/
theorem document?_of_text {format : DocumentFormat} {extension : String}
    (htext : host.text? path = some text) (hextension : Path.extension? path = some extension)
    (hformat : loader.ofExtension? extension = some format) :
    host.document? loader path = some (format, dropMark text) := by
  simp only [document?, htext, hextension, hformat, Option.bind_eq_bind, Option.bind_some]
  rfl

/-- Where a path leads nowhere, there may still be a document beside it. -/
theorem document?_of_absent (habsent : host.find path = none) {format : DocumentFormat}
    {content : String} :
    host.document? loader path = some (format, content) ↔
      ∃ text, host.FirstBeside loader path format text ∧ dropMark text = content := by
  have htext : host.text? path = none := by
    rw [text?, habsent]
  simp only [document?, htext, List.findSome?_eq_some_iff, Option.map_eq_some_iff,
    Option.map_eq_none_iff, appendedText?_eq_some_iff, appendedText?_eq_none_iff, Prod.mk.injEq]
  constructor
  · rintro ⟨before, ⟨tried, extension⟩, after, htries, ⟨text, hbeside, rfl, hcontent⟩, hearlier⟩
    exact ⟨text, ⟨before, extension, after, htries, hbeside, hearlier⟩, hcontent⟩
  · rintro ⟨text, ⟨before, extension, after, htries, hbeside, hearlier⟩, hcontent⟩
    exact ⟨before, (format, extension), after, htries, ⟨text, hbeside, rfl, hcontent⟩, hearlier⟩

theorem readDocument_eq_ok_iff {found : DocumentFormat × String} {es : Entries} :
    readDocument found = .ok es ↔ found.1.read found.2 = some es := by
  unfold readDocument
  split
  · next entries hentries => rw [hentries, Except.ok.injEq, Option.some.injEq]
  · next hnone => simp [hnone]

/-- A document is found if there is one at all and it is sound. -/
theorem requiredEntries_eq_ok_iff {es : Entries} :
    host.requiredEntries loader path = .ok es ↔
      ∃ format content, host.document? loader path = some (format, content) ∧
        format.read content = some es := by
  unfold requiredEntries
  split
  · next found hfound =>
    obtain ⟨format, content⟩ := found
    rw [readDocument_eq_ok_iff]
    constructor
    · intro hread
      exact ⟨format, content, hfound, hread⟩
    · rintro ⟨format', content', hsame, hread⟩
      obtain ⟨rfl, rfl⟩ := Prod.mk.inj (Option.some.inj (hfound.symm.trans hsame))
      exact hread
  · next hnone => simp [hnone]

/-- What is required and found is found as well where it may be missing. -/
theorem optionalEntries_of_required {es : Entries} (hexists : host.pathExists path = true)
    (h : host.requiredEntries loader path = .ok es) :
    host.optionalEntries loader path = .ok es := by
  obtain ⟨format, content, hfound, hread⟩ := requiredEntries_eq_ok_iff.mp h
  rw [optionalEntries, if_pos hexists, hfound]
  exact readDocument_eq_ok_iff.mpr hread

theorem optionalEntries_of_absent (h : host.pathExists path = false) :
    host.optionalEntries loader path = .ok [] := by
  rw [optionalEntries, h]
  rfl

/-- What is wrong with a document is never its length. -/
theorem readDocument_ne_overlong (found : DocumentFormat × String) :
    readDocument found ≠ .error .overlong := by
  unfold readDocument
  split <;> nofun

theorem requiredEntries_ne_overlong : host.requiredEntries loader path ≠ .error .overlong := by
  unfold requiredEntries
  split
  · exact readDocument_ne_overlong _
  · nofun

theorem optionalEntries_ne_overlong : host.optionalEntries loader path ≠ .error .overlong := by
  unfold optionalEntries
  split
  · split
    · exact readDocument_ne_overlong _
    · nofun
  · nofun

theorem userEntries_ne_overlong : host.userEntries loader ≠ .error .overlong := by
  unfold userEntries
  split
  · exact optionalEntries_ne_overlong
  · nofun

end Host

end Ident160
