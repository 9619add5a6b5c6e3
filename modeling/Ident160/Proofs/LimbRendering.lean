import Ident160.Proofs.IdentReading
import Ident160.Proofs.LimbNotation

/-!
From the notation for limbs to an identifier and back. A text that denotes five words is rendered
as the identifier of these words is described, in either letter case, and what is rendered is read
as this identifier again. A text that is not rendered is first blamed for its notation, and then
for the number of its limbs.
-/

namespace Ident160

open Digit LimbList

namespace Ident

theorem ofWords?_words (a : Ident) : ofWords? a.words.toList = some a := by
  obtain ⟨⟨words, h⟩⟩ := a
  simp [ofWords?, Vector.toList, h]

/-- Any five words are those of an identifier. -/
theorem words_of_length {words : List UInt32} (h : words.length = 5) :
    ∃ a : Ident, a.words.toList = words :=
  ⟨⟨⟨words.toArray, by simp [h]⟩⟩, rfl⟩

theorem wordsDigits_toLower (letters : LetterCase) (a : Ident) :
    (wordsDigits letters a.words.toList).map Char.toLower = wordsDigits .lower a.words.toList := by
  obtain ⟨hlength, hdigits, hvalue⟩ := readChars_eq_ok_iff.mp (readChars_wordsDigits letters a)
  exact (wordsDigits_of_written hlength hdigits hvalue).1.symm

end Ident

namespace Settings

variable (settings : Settings)

def letterCase : LetterCase := if settings.display.uppercase then .upper else .lower

theorem describe_hex (a : Ident) :
    (settings.describe a).hex =
      String.ofList (wordsDigits settings.letterCase a.words.toList) := by
  cases hcase : settings.display.uppercase with
  | true =>
    simp only [describe, applyCase, letterCase, hcase, if_true, Ident.toUpperHex, renderWords]
  | false =>
    simp only [describe, applyCase, letterCase, hcase, Bool.false_eq_true, if_false, lowercaseText,
      Ident.toUpperHex, renderWords, String.toList_ofList, Ident.wordsDigits_toLower]

/-- The letter case of a description does not hide the identifier. -/
theorem read_describe_hex (a : Ident) : Ident.read (settings.describe a).hex = .ok a := by
  rw [describe_hex, Ident.read, String.toList_ofList]
  exact Ident.readChars_wordsDigits settings.letterCase a

theorem renderLimbs_words (a : Ident) :
    settings.renderLimbs a.words.toList = .ok (settings.describe a).hex := by
  rw [renderLimbs, renderWordList, Ident.ofWords?_words]
  rfl

theorem renderLimbs_of_count {words : List UInt32} (h : words.length ≠ 5) :
    settings.renderLimbs words = .error (.wrongCount ⟨words.length⟩) := by
  have hnone : Ident.ofWords? words = none := dif_neg h
  rw [renderLimbs, renderWordList, hnone]

/-! ### Texts -/

variable {settings} {text : String}

/-- A list of the notation is rendered like its words. -/
theorem renderLimbList_of_denotes {words : List UInt32} (h : Denotes text.toList words) :
    settings.renderLimbList text = settings.renderLimbs words := by
  have hread : LimbList.read text = .ok words := readChars_eq_ok_iff.mpr h
  rw [renderLimbList, hread]

theorem renderLimbList_of_not_denotes (h : ∀ words, ¬ Denotes text.toList words) :
    ∃ fault, settings.renderLimbList text = .error (.badList fault) := by
  cases hread : LimbList.read text with
  | ok words => exact absurd (readChars_eq_ok_iff.mp hread) (h words)
  | error fault => exact ⟨fault, by rw [renderLimbList, hread]⟩

/-- What is rendered is the description of the identifier whose words the text denotes. -/
theorem renderLimbList_eq_ok_iff {hex : String} :
    settings.renderLimbList text = .ok hex ↔
      ∃ a : Ident, Denotes text.toList a.words.toList ∧ (settings.describe a).hex = hex := by
  constructor
  · intro hrender
    by_cases hdenotes : ∃ words, Denotes text.toList words
    · obtain ⟨words, hwords⟩ := hdenotes
      rw [renderLimbList_of_denotes hwords] at hrender
      by_cases hcount : words.length = 5
      · obtain ⟨a, rfl⟩ := Ident.words_of_length hcount
        rw [renderLimbs_words] at hrender
        exact ⟨a, hwords, Except.ok.inj hrender⟩
      · simp [renderLimbs_of_count settings hcount] at hrender
    · have hnone : ∀ words, ¬ Denotes text.toList words := fun words h => hdenotes ⟨words, h⟩
      obtain ⟨fault, hfault⟩ := @renderLimbList_of_not_denotes settings text hnone
      simp [hfault] at hrender
  · intro h
    obtain ⟨a, hwords, rfl⟩ := h
    rw [renderLimbList_of_denotes hwords, renderLimbs_words]

end Settings

namespace LimbList

/-- Literals that fit 32 bits are words. -/
theorem denotes_of_derives {text : List Char} {literals : List Literal}
    (h : Derives text literals) (hfit : ∀ literal ∈ literals, literal.value < 2 ^ 32) :
    ∃ words, Denotes text words ∧ words.length = literals.length := by
  refine ⟨literals.map fun literal => UInt32.ofNat literal.value, ⟨literals, h, ?_⟩, ?_⟩
  · rw [List.map_map]
    apply List.map_congr_left
    intro literal hmem
    exact (UInt32.toNat_ofNat_of_lt (hfit literal hmem)).symm
  · rw [List.length_map]

theorem derives_of_denotes {text : List Char} {words : List UInt32} (h : Denotes text words) :
    ∃ literals, Derives text literals ∧ ∀ literal ∈ literals, literal.value < 2 ^ 32 := by
  obtain ⟨literals, hderives, hvalues⟩ := h
  refine ⟨literals, hderives, fun literal hmem => ?_⟩
  have hvalue : literal.value ∈ words.map UInt32.toNat := hvalues ▸ List.mem_map_of_mem hmem
  obtain ⟨word, _, hword⟩ := List.mem_map.mp hvalue
  rw [← hword]
  exact word.toNat_lt

end LimbList

/-- Every spelling of the five words of an identifier is rendered as this identifier is described,
and reading what was rendered gives the identifier back. Nothing else is rendered: a text whose
limbs fit but are not five is refused for their number, and any other text for its notation. -/
theorem spellings_render_and_read_back (settings : Settings) :
    (∀ (text : String) (a : Ident), Denotes text.toList a.words.toList →
      ∃ hex, settings.renderLimbList text = .ok hex ∧
        settings.renderLimbs a.words.toList = .ok hex ∧ (settings.describe a).hex = hex ∧
        Ident.read hex = .ok a) ∧
    (∀ text hex : String, settings.renderLimbList text = .ok hex →
      ∃ a, Ident.read hex = .ok a ∧ Denotes text.toList a.words.toList) ∧
    (∀ (text : String) (literals : List Literal), Derives text.toList literals →
      (∀ literal ∈ literals, literal.value < 2 ^ 32) → literals.length ≠ 5 →
      settings.renderLimbList text = .error (.wrongCount ⟨literals.length⟩)) ∧
    ∀ text : String, (∃ fault, settings.renderLimbList text = .error (.badList fault)) ↔
      ∀ literals, Derives text.toList literals →
        ∃ literal ∈ literals, 2 ^ 32 ≤ literal.value := by
  refine ⟨?_, ?_, ?_, ?_⟩
  · intro text a hwords
    exact ⟨(settings.describe a).hex, Settings.renderLimbList_eq_ok_iff.mpr ⟨a, hwords, rfl⟩,
      settings.renderLimbs_words a, rfl, settings.read_describe_hex a⟩
  · intro text hex hrender
    obtain ⟨a, hwords, rfl⟩ := Settings.renderLimbList_eq_ok_iff.mp hrender
    exact ⟨a, settings.read_describe_hex a, hwords⟩
  · intro text literals hderives hfit hcount
    obtain ⟨words, hwords, hlength⟩ := denotes_of_derives hderives hfit
    rw [← hlength] at hcount ⊢
    rw [Settings.renderLimbList_of_denotes hwords, settings.renderLimbs_of_count hcount]
  · intro text
    constructor
    · intro h literals hderives
      obtain ⟨fault, hfault⟩ := h
      by_contra hwide
      have hfit : ∀ literal ∈ literals, literal.value < 2 ^ 32 := by
        intro literal hmem
        by_contra hlarge
        exact hwide ⟨literal, hmem, by omega⟩
      obtain ⟨words, hwords, _⟩ := denotes_of_derives hderives hfit
      rw [Settings.renderLimbList_of_denotes hwords] at hfault
      by_cases hcount : words.length = 5
      · obtain ⟨a, rfl⟩ := Ident.words_of_length hcount
        simp [settings.renderLimbs_words] at hfault
      · simp [settings.renderLimbs_of_count hcount] at hfault
    · intro hwide
      apply Settings.renderLimbList_of_not_denotes
      intro words hwords
      obtain ⟨literals, hderives, hfit⟩ := derives_of_denotes hwords
      obtain ⟨literal, hmem, hlarge⟩ := hwide literals hderives
      have hlt := hfit literal hmem
      omega

/-- A dump in mixed spellings, shown in lowercase, and a list that has two limbs only. -/
theorem dump_and_short_list_rendered :
    let settings : Settings := ⟨⟨false, true⟩, ⟨none⟩⟩
    let dump := "\x7b_M_elems = [0XDEADbeef 007,0\t,\n0 4294967295] \x7d"
    let hex := "deadbeef000000070000000000000000ffffffff"
    settings.renderLimbList dump = .ok hex ∧ (∃ a, Ident.read hex = .ok a) ∧
      settings.renderLimbList "1 2" = .error (.wrongCount ⟨2⟩) := by
  intro settings dump hex
  obtain ⟨hspelled, hback, hshort, _⟩ := spellings_render_and_read_back settings
  let a : Ident := ⟨#v[0xDEADBEEF, 7, 0, 0, 0xFFFFFFFF]⟩
  have hdump : Denotes dump.toList a.words.toList :=
    readChars_eq_ok_iff.mp (by decide +kernel)
  have hpair : Derives "1 2".toList [.decimal ['1'], .decimal ['2']] :=
    derives_of_readLiterals (by decide +kernel)
  have hsmall : ∀ literal ∈ [Literal.decimal ['1'], .decimal ['2']], literal.value < 2 ^ 32 := by
    decide
  obtain ⟨found, hrender, _, hdescribed, _⟩ := hspelled dump a hdump
  have hfound : found = hex := hdescribed.symm.trans (by decide +kernel)
  rw [hfound] at hrender
  obtain ⟨b, hread, _⟩ := hback dump hex hrender
  exact ⟨hrender, ⟨b, hread⟩, hshort "1 2" _ hpair hsmall (by decide)⟩

end Ident160
