import Ident160.Inspector
import Ident160.Proofs.HexDecoding
import Ident160.Proofs.IdentNumbers

/-!
Reading and rendering identifiers are inverse to each other. A text of forty hexadecimal digits is
read as the identifier of the number that it writes, and the renderings of this identifier are the
text again but for the case of its letters. Every other text has exactly one fault, and the reader
reports it.
-/

namespace Ident160

open Digit

def uppercaseText (text : String) : String := String.ofList (text.toList.map Char.toUpper)

namespace Ident

/-- The fault of a text that is no identifier: its length, or else the first character beyond
ASCII wherever it stands, or else the first character that is no digit. -/
inductive Blames : List Char → ReadError → Prop
  | length (cs : List Char) (wrong : cs.length ≠ 40) : Blames cs (.badLength cs.length)
  | beyondAscii (before after : List Char) (c : Char) (right : (before ++ c :: after).length = 40)
      (ascii : ∀ b ∈ before, b.toNat < 128) (beyond : 128 ≤ c.toNat) :
      Blames (before ++ c :: after) (.badCharacter c)
  | noDigit (before after : List Char) (c : Char) (right : (before ++ c :: after).length = 40)
      (ascii : ∀ b ∈ before ++ c :: after, b.toNat < 128)
      (digits : ∀ b ∈ before, isHex b = true) (bad : isHex c = false) :
      Blames (before ++ c :: after) (.badCharacter c)

/-! ### Reading -/

theorem isBeyondAscii_eq_false {c : Char} (h : c.toNat < 128) : isBeyondAscii c = false :=
  decide_eq_false (by omega)

theorem find?_beyondAscii_eq_none {cs : List Char} (h : ∀ c ∈ cs, c.toNat < 128) :
    cs.find? isBeyondAscii = none := by
  rw [List.find?_eq_none]
  intro c hc
  rw [isBeyondAscii_eq_false (h c hc)]
  exact Bool.false_ne_true

theorem ascii_of_allDigits {cs : List Char} (h : AllDigits 16 cs) : ∀ c ∈ cs, c.toNat < 128 := by
  intro c hc
  obtain ⟨d, hd⟩ := Option.isSome_iff_exists.mp (h c hc)
  exact HexBytes.ascii_of_value? hd

theorem readChars_of_digits {cs : List Char} (hlength : cs.length = 40)
    (hdigits : AllDigits 16 cs) : ∃ a, readChars cs = .ok a ∧ a.toNat = written 16 cs := by
  have hascii := ascii_of_allDigits hdigits
  obtain ⟨bytes, h, hdecode, hvalue⟩ := HexBytes.decode_of_digits byteSize hlength hdigits
  refine ⟨ofBytes bytes h, ?_, (toNat_ofBytes bytes h).trans hvalue⟩
  have hsize : ¬ cs.length ≠ hexSize := fun hne => hne hlength
  rw [readChars, if_neg hsize, find?_beyondAscii_eq_none hascii, HexBytes.utf8_of_ascii hascii]
  simp only [hdecode]

/-- Every fault is told as it is. -/
theorem readChars_of_blames {cs : List Char} {e : ReadError} (h : Blames cs e) :
    readChars cs = .error e := by
  cases h with
  | length cs wrong => exact if_pos wrong
  | beyondAscii before after c right ascii beyond =>
    have hsize : ¬ (before ++ c :: after).length ≠ hexSize := fun hne => hne right
    have hfind : (before ++ c :: after).find? isBeyondAscii = some c := by
      rw [List.find?_append, find?_beyondAscii_eq_none ascii]
      exact List.find?_cons_of_pos (decide_eq_true beyond)
    rw [readChars, if_neg hsize, hfind]
  | noDigit before after c right ascii digits bad =>
    have hsize : ¬ (before ++ c :: after).length ≠ hexSize := fun hne => hne right
    have hnone : value? 16 c = none := Option.not_isSome_iff_eq_none.mp (by simpa [isHex] using bad)
    have hdecode := HexBytes.decode_of_bad byteSize right digits (ascii c (by simp)) hnone
    rw [readChars, if_neg hsize, find?_beyondAscii_eq_none ascii, HexBytes.utf8_of_ascii ascii]
    simp only [hdecode]

/-- The three faults leave out nothing but the texts of forty digits. -/
theorem digits_or_blames (cs : List Char) :
    cs.length = 40 ∧ AllDigits 16 cs ∨ ∃ e, Blames cs e := by
  by_cases hlength : cs.length = 40
  · cases hbeyond : cs.find? isBeyondAscii with
    | some c =>
      obtain ⟨hc, before, after, rfl, hbefore⟩ := List.find?_eq_some_iff_append.mp hbeyond
      have hascii : ∀ b ∈ before, b.toNat < 128 := by
        intro b hb
        have hnot := hbefore b hb
        simp only [isBeyondAscii, Bool.not_eq_true', decide_eq_false_iff_not] at hnot
        omega
      exact Or.inr ⟨_, .beyondAscii before after c hlength hascii (of_decide_eq_true hc)⟩
    | none =>
      have hascii : ∀ c ∈ cs, c.toNat < 128 := by
        intro c hc
        have hnot := List.find?_eq_none.mp hbeyond c hc
        simp only [isBeyondAscii, decide_eq_true_eq] at hnot
        omega
      cases hbad : cs.find? (fun c => !isHex c) with
      | some c =>
        obtain ⟨hc, before, after, rfl, hbefore⟩ := List.find?_eq_some_iff_append.mp hbad
        exact Or.inr ⟨_, .noDigit before after c hlength hascii
          (fun b hb => by simpa using hbefore b hb) (by simpa using hc)⟩
      | none =>
        refine Or.inl ⟨hlength, fun c hc => ?_⟩
        have hdigit := List.find?_eq_none.mp hbad c hc
        change isHex c = true
        simpa using hdigit
  · exact Or.inr ⟨_, .length cs hlength⟩

theorem readChars_eq_error_iff {cs : List Char} {e : ReadError} :
    readChars cs = .error e ↔ Blames cs e := by
  constructor
  · intro hread
    rcases digits_or_blames cs with ⟨hlength, hdigits⟩ | ⟨e', hblames⟩
    · obtain ⟨a, hok, _⟩ := readChars_of_digits hlength hdigits
      simp [hok] at hread
    · have he : e' = e := Except.error.inj ((readChars_of_blames hblames).symm.trans hread)
      exact he ▸ hblames
  · exact readChars_of_blames

/-- Forty digits are read as the number that they write, and nothing else is read. -/
theorem readChars_eq_ok_iff {cs : List Char} {a : Ident} :
    readChars cs = .ok a ↔ cs.length = 40 ∧ AllDigits 16 cs ∧ a.toNat = written 16 cs := by
  constructor
  · intro hread
    rcases digits_or_blames cs with ⟨hlength, hdigits⟩ | ⟨e, hblames⟩
    · obtain ⟨a', hok, hvalue⟩ := readChars_of_digits hlength hdigits
      obtain rfl := Except.ok.inj (hok.symm.trans hread)
      exact ⟨hlength, hdigits, hvalue⟩
    · simp [readChars_of_blames hblames] at hread
  · intro h
    obtain ⟨hlength, hdigits, hvalue⟩ := h
    obtain ⟨a', hok, hvalue'⟩ := readChars_of_digits hlength hdigits
    rw [hok, toNat_injective (hvalue'.trans hvalue.symm)]

/-! ### Rendering -/

theorem wordsDigits_of_written {cs : List Char} {a : Ident} (hlength : cs.length = 40)
    (hdigits : AllDigits 16 cs) (hvalue : a.toNat = written 16 cs) :
    wordsDigits .lower a.words.toList = cs.map Char.toLower ∧
      wordsDigits .upper a.words.toList = cs.map Char.toUpper := by
  have hsome : ∀ c ∈ cs, value? 16 c = some ((value? 16 c).getD 0) := by
    intro c hc
    obtain ⟨d, hd⟩ := Option.isSome_iff_exists.mp (hdigits c hc)
    rw [hd, Option.getD_some]
  have hlt : ∀ d ∈ values 16 cs, d < 16 := by
    intro d hd
    obtain ⟨c, hc, rfl⟩ := List.mem_map.mp hd
    exact (value?_eq_some_iff.mp (hsome c hc)).1
  have hfixed : fixed 16 40 a.toNat = values 16 cs := by
    have h := fixed_ofDigits hlt
    rw [values, List.length_map, hlength] at h
    rw [hvalue]
    exact h
  have hchar : ∀ c ∈ cs, char .lower ((value? 16 c).getD 0) = c.toLower ∧
      char .upper ((value? 16 c).getD 0) = c.toUpper := fun c hc => char_of_value? (hsome c hc)
  rw [wordsDigits_words, wordsDigits_words, hfixed, values, List.map_map, List.map_map]
  exact ⟨List.map_congr_left fun c hc => (hchar c hc).1,
    List.map_congr_left fun c hc => (hchar c hc).2⟩

theorem readChars_wordsDigits (letters : LetterCase) (a : Ident) :
    readChars (wordsDigits letters a.words.toList) = .ok a := by
  have hlt : ∀ d ∈ fixed 16 40 a.toNat, d < 16 := fun _ hd => lt_of_mem_fixed (by decide) hd
  rw [wordsDigits_words, readChars_eq_ok_iff]
  refine ⟨by rw [List.length_map, length_fixed], ?_, ?_⟩
  · intro c hc
    obtain ⟨d, hd, rfl⟩ := List.mem_map.mp hc
    rw [value?_char letters (hlt d hd), Option.isSome_some]
  · have hbound : a.toNat < 16 ^ 40 := a.toNat_lt
    rw [written, values_map_char letters hlt, ofDigits_fixed, Nat.mod_eq_of_lt hbound]

/-- All ways to show an identifier write the digits of its words, in their own letter case. -/
theorem renderings (a : Ident) :
    a.display {} = String.ofList (wordsDigits .lower a.words.toList) ∧
      a.lowerHex {} = String.ofList (wordsDigits .lower a.words.toList) ∧
      a.upperHex {} = String.ofList (wordsDigits .upper a.words.toList) ∧
      a.toUpperHex = String.ofList (wordsDigits .upper a.words.toList) := by
  refine ⟨?_, ?_, ?_, rfl⟩
  · simp [display, lowerHex, Layout.mark]
  · simp [lowerHex, Layout.mark]
  · simp [upperHex, appendWords, Layout.mark]

/-- The decoder gets texts of forty ASCII characters only, so it never has a length to blame. -/
theorem decode_length_sound {cs : List Char} (hlength : cs.length = hexSize)
    (hascii : cs.find? isBeyondAscii = none) :
    HexBytes.decode byteSize (cs.flatMap String.utf8EncodeChar) ≠ .error .oddLength ∧
      HexBytes.decode byteSize (cs.flatMap String.utf8EncodeChar) ≠ .error .wrongLength := by
  rcases digits_or_blames cs with ⟨_, hdigits⟩ | ⟨e, hblames⟩
  · obtain ⟨bytes, h, hdecode, _⟩ := HexBytes.decode_of_digits byteSize hlength hdigits
    rw [HexBytes.utf8_of_ascii (ascii_of_allDigits hdigits), hdecode]
    simp
  · cases hblames with
    | length cs wrong => exact absurd hlength wrong
    | beyondAscii before after c right ascii beyond =>
      have hnot := List.find?_eq_none.mp hascii c (by simp)
      exact absurd (decide_eq_true beyond) hnot
    | noDigit before after c right ascii digits bad =>
      have hnone : value? 16 c = none :=
        Option.not_isSome_iff_eq_none.mp (by simpa [isHex] using bad)
      have hdecode := HexBytes.decode_of_bad byteSize right digits (ascii c (by simp)) hnone
      rw [HexBytes.utf8_of_ascii ascii, hdecode]
      simp

/-- Exactly the texts of forty hexadecimal digits are read, as the identifiers of the numbers that
they write, and rendering gives them back in the chosen case. Each rendering of an identifier is
read as this identifier. Every other text is refused for its one fault, and never by the decoder
for its length. -/
theorem read_inverts_render :
    (∀ text : String, (∃ a, read text = .ok a) ↔
      text.toList.length = 40 ∧ ∀ c ∈ text.toList, isHex c = true) ∧
    (∀ (text : String) (a : Ident), read text = .ok a →
      a.toNat = written 16 text.toList ∧
        a.display {} = lowercaseText text ∧ a.lowerHex {} = lowercaseText text ∧
        a.upperHex {} = uppercaseText text ∧ a.toUpperHex = uppercaseText text) ∧
    (∀ a : Ident, read (a.display {}) = .ok a ∧ read (a.lowerHex {}) = .ok a ∧
      read (a.upperHex {}) = .ok a ∧ read a.toUpperHex = .ok a) ∧
    (∀ (text : String) (e : ReadError), read text = .error e ↔ Blames text.toList e) ∧
    ∀ text : String, text.toList.length = hexSize → text.toList.find? isBeyondAscii = none →
      HexBytes.decode byteSize (text.toList.flatMap String.utf8EncodeChar) ≠ .error .oddLength ∧
        HexBytes.decode byteSize (text.toList.flatMap String.utf8EncodeChar) ≠
          .error .wrongLength := by
  refine ⟨?_, ?_, ?_, fun _ _ => readChars_eq_error_iff, fun _ => decode_length_sound⟩
  · intro text
    constructor
    · intro h
      obtain ⟨a, hread⟩ := h
      obtain ⟨hlength, hdigits, _⟩ := readChars_eq_ok_iff.mp hread
      exact ⟨hlength, hdigits⟩
    · intro h
      obtain ⟨a, hread, _⟩ := readChars_of_digits h.1 h.2
      exact ⟨a, hread⟩
  · intro text a hread
    obtain ⟨hlength, hdigits, hvalue⟩ := readChars_eq_ok_iff.mp hread
    obtain ⟨hdisplay, hlower, hupper, hplain⟩ := renderings a
    obtain ⟨hlowercase, huppercase⟩ := wordsDigits_of_written hlength hdigits hvalue
    rw [hdisplay, hlower, hupper, hplain, hlowercase, huppercase]
    exact ⟨hvalue, rfl, rfl, rfl, rfl⟩
  · intro a
    have hread : ∀ letters, read (String.ofList (wordsDigits letters a.words.toList)) = .ok a := by
      intro letters
      rw [read, String.toList_ofList]
      exact readChars_wordsDigits letters a
    obtain ⟨hdisplay, hlower, hupper, hplain⟩ := renderings a
    rw [hdisplay, hlower, hupper, hplain]
    exact ⟨hread .lower, hread .lower, hread .upper, hread .upper⟩

/-- Two texts of forty characters: digits of both cases, and digits that an accented letter ends.
The latter is blamed although its UTF-8 form has an odd number of bytes. -/
theorem read_mixed_case_and_accented :
    (∃ a, read "C544b5e4A1afcbb5d2de772d7a8df76f3255714F" = .ok a ∧
      a.toNat = written 16 "C544b5e4A1afcbb5d2de772d7a8df76f3255714F".toList ∧
      a.display {} = "c544b5e4a1afcbb5d2de772d7a8df76f3255714f" ∧
      a.toUpperHex = "C544B5E4A1AFCBB5D2DE772D7A8DF76F3255714F") ∧
    read "zzzzzzzzzzzzzzzzzzzzzzzzzzzzzzzzzzzzzzzé" = .error (.badCharacter 'é') := by
  obtain ⟨haccept, hrender, _, hrefuse, _⟩ := read_inverts_render
  constructor
  · obtain ⟨a, hread⟩ :=
      (haccept "C544b5e4A1afcbb5d2de772d7a8df76f3255714F").mpr
        ⟨by decide, List.all_eq_true.mp (by decide)⟩
    obtain ⟨hvalue, hdisplay, _, _, hupper⟩ := hrender _ a hread
    exact ⟨a, hread, hvalue, hdisplay, hupper⟩
  · have hascii : ∀ c ∈ List.replicate 39 'z', c.toNat < 128 := by
      intro c hc
      rw [List.eq_of_mem_replicate hc]
      decide
    exact (hrefuse _ _).mpr (.beyondAscii _ [] 'é' (by decide) hascii (by decide))

end Ident

end Ident160
