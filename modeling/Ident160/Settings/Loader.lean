import Ident160.Document.Json
import Ident160.Document.Toml.Reader

/-!
What documents are read with. A format has a reader and the extensions of its files. A loader knows
several formats, in an order that nothing is said about, and among them the two that are read here.
-/

namespace Ident160

open Document (Entries)

structure DocumentFormat where
  /-- Extensions of files in this format. Case matters. -/
  extensions : List String
  read : String → Option Entries

namespace DocumentFormat

def toml : DocumentFormat := ⟨["toml"], Document.Toml.read⟩

def json : DocumentFormat := ⟨["json"], Document.Json.read⟩

end DocumentFormat

structure Loader where
  formats : List DocumentFormat
  /-- The number of items that an array can have. -/
  capacity : Nat
  toml_mem : DocumentFormat.toml ∈ formats
  json_mem : DocumentFormat.json ∈ formats
  /-- No extension belongs to two formats. -/
  disjoint : ∀ format ∈ formats, ∀ other ∈ formats, ∀ extension ∈ format.extensions,
    extension ∈ other.extensions → format = other

namespace Loader

def ofExtension? (loader : Loader) (extension : String) : Option DocumentFormat :=
  loader.formats.find? fun format => format.extensions.contains extension

/-- All extensions with their formats, in the order in which they are tried. -/
def tries (loader : Loader) : List (DocumentFormat × String) :=
  loader.formats.flatMap fun format => format.extensions.map fun extension => (format, extension)

/-- An extension leads to its format, whatever the order of formats is. -/
theorem ofExtension?_eq_some_iff {loader : Loader} {extension : String} {format : DocumentFormat} :
    loader.ofExtension? extension = some format ↔
      format ∈ loader.formats ∧ extension ∈ format.extensions := by
  constructor
  · intro h
    have hmem := List.find?_some h
    exact ⟨List.mem_of_find?_eq_some h, by simpa using hmem⟩
  · rintro ⟨hformat, hextension⟩
    have hsome : (loader.ofExtension? extension).isSome = true := by
      rw [ofExtension?, List.find?_isSome]
      exact ⟨format, hformat, by simpa using hextension⟩
    obtain ⟨other, hother⟩ := Option.isSome_iff_exists.mp hsome
    have hmem := List.find?_some hother
    have hsame := loader.disjoint other (List.mem_of_find?_eq_some hother) format hformat extension
      (by simpa using hmem) hextension
    rw [hother, hsame]

/-- The loader that knows no other formats, for arrays of values of some sixty bytes each. -/
def plain : Loader where
  formats := [.toml, .json]
  capacity := 2 ^ 57 - 1
  toml_mem := List.mem_cons_self
  json_mem := List.mem_cons_of_mem _ List.mem_cons_self
  disjoint := by simp [DocumentFormat.toml, DocumentFormat.json]

end Loader

end Ident160
