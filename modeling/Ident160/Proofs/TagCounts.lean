import Ident160.Proofs.Fields
import Ident160.Proofs.VariableValues

/-!
What is read from the notation of a build. Behind a tag stand the number of commits since it and
the hash of the commit, and this number is found whatever the tag looks like. The tag alone is
taken for such a notation, too, if it ends in a number between dashes and one more part, and then
a build made on the tag passes for one that was made after it.
-/

namespace Ident160.Release

open Digit

/-! ### The last two dashes -/

theorem dashParts_append (before after : List Char) :
    dashParts (before ++ '-' :: after) = dashParts before ++ dashParts after := by
  simp only [dashParts_eq_fields]
  exact Account.fields_append (by decide) before after

theorem dashParts_of_no_dash {cs : List Char} (h : '-' ∉ cs) : dashParts cs = [cs] := by
  rw [dashParts_eq_fields]
  apply Account.fields_of_unbroken
  intro c hc
  exact decide_eq_false fun heq => h (heq ▸ hc)

theorem exists_last_dash {cs : List Char} (h : '-' ∈ cs) :
    ∃ before last, cs = before ++ '-' :: last ∧ '-' ∉ last := by
  induction cs with
  | nil => simp at h
  | cons c cs ih =>
    by_cases hcs : '-' ∈ cs
    · obtain ⟨before, last, rfl, hlast⟩ := ih hcs
      exact ⟨c :: before, last, rfl, hlast⟩
    · have hc : c = '-' := by simpa [hcs, eq_comm] using h
      exact ⟨[], cs, by rw [hc, List.nil_append], hcs⟩

theorem countPart_of_dashes (before : List Char) {count last : List Char} (hcount : '-' ∉ count)
    (hlast : '-' ∉ last) : countPart (before ++ '-' :: (count ++ '-' :: last)) = some count := by
  have hparts : (dashParts before).reverse ≠ [] := by
    rw [dashParts_eq_fields, ne_eq, List.reverse_eq_nil_iff]
    exact Account.fields_ne_nil before
  obtain ⟨part, parts, hbefore⟩ := List.exists_cons_of_ne_nil hparts
  rw [countPart, dashParts_append, dashParts_append, dashParts_of_no_dash hcount,
    dashParts_of_no_dash hlast, List.reverse_append, hbefore]
  rfl

/-- The count is what the last two dashes enclose, whatever stands before and behind them. -/
theorem countPart_eq_some_iff {text count : List Char} :
    countPart text = some count ↔
      ∃ before last, text = before ++ '-' :: (count ++ '-' :: last) ∧
        '-' ∉ count ∧ '-' ∉ last := by
  constructor
  · intro h
    by_cases htext : '-' ∈ text
    · obtain ⟨front, last, rfl, hlast⟩ := exists_last_dash htext
      by_cases hfront : '-' ∈ front
      · obtain ⟨before, middle, rfl, hmiddle⟩ := exists_last_dash hfront
        rw [List.append_assoc, List.cons_append] at h
        obtain rfl := Option.some.inj ((countPart_of_dashes before hmiddle hlast).symm.trans h)
        exact ⟨before, last, by rw [List.append_assoc, List.cons_append], hmiddle, hlast⟩
      · simp [countPart, dashParts_append, dashParts_of_no_dash hlast,
          dashParts_of_no_dash hfront] at h
    · simp [countPart, dashParts_of_no_dash htext] at h
  · rintro ⟨before, last, rfl, hcount, hlast⟩
    exact countPart_of_dashes before hcount hlast

/-! ### Counts of commits -/

/-- A text that ends like what stands behind a tag: a number between two dashes, maybe with a plus
sign, and one more part, whatever that is. -/
def EndsInCount (text : List Char) (n : UInt32) : Prop :=
  ∃ before count last digits, text = before ++ '-' :: (count ++ '-' :: last) ∧ '-' ∉ last ∧
    (count = digits ∨ count = '+' :: digits) ∧ Writes digits n.toNat

def describedAs (tag : String) (n : UInt32) (hash : String) : String :=
  tag ++ "-" ++ decimalText n.toNat ++ "-g" ++ hash

theorem no_dash_of_writes {digits : List Char} {n : Nat} (h : Writes digits n) :
    '-' ∉ digits := by
  intro hmem
  exact absurd (h.isDigit hmem) (by decide)

/-- The count is read wherever the notation ends like one, also in a tag. -/
theorem commitsSinceTag_eq_some_iff {r : Release} {text : String}
    (hversion : r.gitVersion = some text) (n : UInt32) :
    r.commitsSinceTag = some n ↔ EndsInCount text.toList n := by
  have hread : r.commitsSinceTag = some n ↔
      ∃ count, countPart text.toList = some count ∧ Numeral.readWord 10 count = .ok n := by
    simp [commitsSinceTag, hversion, Option.bind_eq_some_iff, toOption_eq_some_iff]
  rw [hread]
  constructor
  · rintro ⟨count, hcount, hword⟩
    obtain ⟨before, last, htext, -, hlast⟩ := countPart_eq_some_iff.mp hcount
    obtain ⟨digits, hdigits, hne, hall, hdenotes⟩ :=
      (Numeral.readWord_eq_ok_iff (by decide)).mp hword
    exact ⟨before, count, last, digits, htext, hlast, hdigits, ⟨hne, hall, hdenotes⟩⟩
  · rintro ⟨before, count, last, digits, htext, hlast, hdigits, hwrites⟩
    have hcount : '-' ∉ count := by
      rcases hdigits with rfl | rfl
      · exact no_dash_of_writes hwrites
      · simpa using no_dash_of_writes hwrites
    refine ⟨count, countPart_eq_some_iff.mpr ⟨before, last, htext, hcount, hlast⟩, ?_⟩
    exact (Numeral.readWord_eq_ok_iff (by decide)).mpr
      ⟨digits, hdigits, hwrites.nonempty, hwrites.digits, hwrites.denotes⟩

/-- The notation of a build ends in its count, whatever the tag. -/
theorem endsInCount_describedAs (tag : String) (n : UInt32) {hash : String}
    (hhash : ∀ c ∈ hash.toList, isHex c = true) :
    EndsInCount (describedAs tag n hash).toList n := by
  refine ⟨tag.toList, decimal n.toNat, 'g' :: hash.toList, decimal n.toNat, ?_, ?_, Or.inl rfl,
    writes_decimal n.toNat⟩
  · simp [describedAs, decimalText]
  · simp only [List.mem_cons, not_or]
    refine ⟨by decide, fun hmem => ?_⟩
    exact absurd (hhash '-' hmem) (by decide)

/-! ### Releases -/

/-- A clean build is a release unless it counts commits. -/
theorem isDevelopment_eq_false_iff {r : Release} (hclean : r.isDirty = false)
    (hprofile : r.profile ≠ "debug") :
    r.isDevelopment = false ↔ ∀ n, r.commitsSinceTag = some n → n = 0 := by
  cases hcount : r.commitsSinceTag with
  | none => simp [isDevelopment, hclean, hprofile, hcount]
  | some n =>
    have hzero : ¬ 0 < n ↔ n = 0 := by
      rw [UInt32.lt_iff_toNat_lt, ← UInt32.toNat_inj, UInt32.toNat_zero]
      omega
    simp [isDevelopment, hclean, hprofile, hcount, hzero, eq_comm]

theorem short_of_release {r : Release} (h : r.isDevelopment = false) :
    r.short = "v" ++ r.version := by
  rw [short, h]
  rfl

theorem short_of_development {r : Release} (h : r.isDevelopment = true) :
    ∃ marked, r.short = "v" ++ r.version ++ "-dev" ++ marked := by
  have hplus : "-dev+" = "-dev" ++ "+" := by decide
  rw [short, if_pos h]
  split
  · exact ⟨"", by simp⟩
  · exact ⟨"+" ++ ".".intercalate r.marks, by rw [hplus]; simp only [String.append_assoc]⟩

/-- What marks a development build is never empty, so its version is not that of the release. -/
theorem short_eq_release_iff (r : Release) :
    r.short = "v" ++ r.version ↔ r.isDevelopment = false := by
  constructor
  · intro h
    rw [← Bool.not_eq_true]
    intro hdevelopment
    obtain ⟨marked, hmarked⟩ := short_of_development hdevelopment
    have hlength := congrArg String.length (hmarked.symm.trans h)
    have hmark : "-dev".length = 4 := by decide
    simp only [String.length_append] at hlength
    omega
  · exact short_of_release

/-- The number of commits behind a tag is found for every tag. A tag alone gives a number exactly
if it ends in one between dashes with one more part behind it, and a clean build on the tag, made
with optimisation, is told as the release that it is exactly if there is no such number but zero. -/
theorem tag_misread_iff_endsInCount (r : Release) (tag : String) :
    (∀ (n : UInt32) (hash : String), 1 ≤ n → (∀ c ∈ hash.toList, isHex c = true) →
      commitsSinceTag { r with gitVersion := some (describedAs tag n hash) } = some n) ∧
    (∀ n, commitsSinceTag { r with gitVersion := some tag } = some n ↔ EndsInCount tag.toList n) ∧
    (r.isDirty = false → r.profile ≠ "debug" →
      (isDevelopment { r with gitVersion := some tag } = false ↔
        ∀ n, EndsInCount tag.toList n → n = 0) ∧
      (short { r with gitVersion := some tag } = "v" ++ r.version ↔
        ∀ n, EndsInCount tag.toList n → n = 0)) := by
  have hcount : ∀ n, commitsSinceTag { r with gitVersion := some tag } = some n ↔
      EndsInCount tag.toList n := commitsSinceTag_eq_some_iff rfl
  refine ⟨?_, hcount, ?_⟩
  · intro n hash _ hhash
    exact (commitsSinceTag_eq_some_iff rfl n).mpr (endsInCount_describedAs tag n hhash)
  · intro hclean hprofile
    have hrelease : isDevelopment { r with gitVersion := some tag } = false ↔
        ∀ n, EndsInCount tag.toList n → n = 0 := by
      simp only [← hcount]
      exact isDevelopment_eq_false_iff hclean hprofile
    exact ⟨hrelease, (short_eq_release_iff { r with gitVersion := some tag }).trans hrelease⟩

/-- A tag with dashes and a number of its own, but none that counts commits. -/
theorem tag_of_beta_read :
    let r : Release := { version := "0.1.0", target := "t", profile := "release", compiler := "c" }
    let tag := "v0.1.0-2-beta-x"
    commitsSinceTag { r with gitVersion := some "v0.1.0-2-beta-x-15-ge1c9641" } = some 15 ∧
      commitsSinceTag { r with gitVersion := some tag } = none ∧
      isDevelopment { r with gitVersion := some tag } = false ∧
      short { r with gitVersion := some tag } = "v0.1.0" := by
  intro r tag
  obtain ⟨hbehind, hon, hrelease⟩ := tag_misread_iff_endsInCount r tag
  have hnone : commitsSinceTag { r with gitVersion := some tag } = none := by decide
  have hnever : ∀ n, EndsInCount tag.toList n → n = 0 := by
    intro n hends
    rw [← hon, hnone] at hends
    contradiction
  obtain ⟨hdevelopment, hshort⟩ := hrelease rfl (by decide)
  exact ⟨hbehind 15 "e1c9641" (by decide) (List.all_eq_true.mp (by decide)), hnone,
    hdevelopment.mpr hnever, hshort.mpr hnever⟩

/-- A tag with a date is no notation of commits behind a tag, and is read as 2024 of them. -/
theorem dated_tag_passes_for_commits :
    let r : Release := { version := "0.1.0", target := "t", profile := "release", compiler := "c" }
    let tag := "release-2024-06"
    (¬ ∃ before digits hash, tag.toList = before ++ '-' :: (digits ++ '-' :: 'g' :: hash) ∧
        AllDigits 10 digits ∧ AllDigits 16 hash) ∧
      commitsSinceTag { r with gitVersion := some tag } = some 2024 ∧
      isDevelopment { r with gitVersion := some tag } = true ∧
      short { r with gitVersion := some tag } = "v0.1.0-dev+2024" := by
  intro r tag
  refine ⟨?_, by decide, by decide, by decide⟩
  rintro ⟨before, digits, hash, htag, -, -⟩
  have hmem : 'g' ∈ tag.toList := by
    rw [htag]
    simp
  exact absurd hmem (by decide)

end Ident160.Release
