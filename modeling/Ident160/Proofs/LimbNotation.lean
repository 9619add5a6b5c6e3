import Ident160.Proofs.LimbParsers
import Ident160.Proofs.LimbShapes

/-!
The reader of limb lists accepts exactly the notation, with the values that it gives to a text.
The reader commits to the first alternative that fits and takes blanks greedily, while the grammar
knows no order; still no derivable text is lost. And as the reader gives one answer, no text has
two derivations with different limbs.
-/

namespace Ident160.LimbList

theorem readLiterals_eq (text : List Char) :
    readLiterals text =
      match skipBlanks (readShape (skipBlanks text)).2 with
      | [] => .ok (readShape (skipBlanks text)).1
      | c :: cs => .error (.unexpected (c :: cs)) := rfl

theorem derives_of_readLiterals {text : List Char} {literals : List Literal}
    (h : readLiterals text = .ok literals) : Derives text literals := by
  obtain ⟨before, hbefore, htext⟩ := exists_blanks text
  obtain ⟨taken, htaken, hshape⟩ := readShape_sound (skipBlanks text)
  rw [readLiterals_eq] at h
  split at h
  · next hskip =>
    have hafter := blanks_of_skipBlanks_eq_nil hskip
    rw [Except.ok.inj h] at hshape
    rw [htaken, ← List.append_assoc] at htext
    rw [htext]
    rcases hshape with hdump | hbracketed | helements
    · exact .dump _ _ _ _ hbefore hdump hafter
    · exact .bracketed _ _ _ _ hbefore hbracketed hafter
    · exact .elements _ _ _ _ hbefore helements hafter
  · simp at h

/-- A text is read if nothing but blanks is left around what the first alternative takes. -/
theorem readLiterals_of_shape {before text after last : List Char} {literals : List Literal}
    (hbefore : Blanks before)
    (hshape : readShape (skipBlanks (text ++ after)) = (literals, last))
    (hlast : Blanks last) : readLiterals (before ++ text ++ after) = .ok literals := by
  rw [readLiterals_eq, List.append_assoc, skipBlanks_append hbefore, hshape,
    skipBlanks_eq_nil hlast]

theorem readLiterals_of_derives {text : List Char} {literals : List Literal}
    (h : Derives text literals) : readLiterals text = .ok literals := by
  cases h with
  | dump before text after literals hbefore hdump hafter =>
    have hread : readDump (text ++ after) = some (literals, after) := readDump_append hdump
    refine readLiterals_of_shape hbefore ?_ hafter
    rw [skipBlanks_of_ends (hdump.ends after), readShape, hread]
  | bracketed before text after literals hbefore hbracketed hafter =>
    have hread : readBracketed (text ++ after) = some (literals, after) :=
      readBracketed_append hbracketed
    refine readLiterals_of_shape hbefore ?_ hafter
    rw [skipBlanks_of_ends (hbracketed.ends after), readShape, readDump_bracketed hbracketed, hread]
  | elements before text after literals hbefore helements hafter =>
    obtain ⟨last, hread, hskip⟩ :=
      readElements_skipBlanks hbefore helements (closes_of_blanks hafter)
    rw [skipBlanks_append hbefore] at hread
    rw [skipBlanks_eq_nil hafter] at hskip
    refine readLiterals_of_shape hbefore ?_ (blanks_of_skipBlanks_eq_nil hskip)
    rw [readShape, readDump_bare helements hafter, readBracketed_bare helements hafter, hread]

theorem readLiterals_eq_ok_iff {text : List Char} {literals : List Literal} :
    readLiterals text = .ok literals ↔ Derives text literals :=
  ⟨derives_of_readLiterals, readLiterals_of_derives⟩

/-- The grammar is unambiguous as far as the limbs are concerned. -/
theorem derives_unique {text : List Char} {first second : List Literal}
    (hfirst : Derives text first) (hsecond : Derives text second) : first = second := by
  rw [← readLiterals_eq_ok_iff] at hfirst hsecond
  exact Except.ok.inj (hfirst.symm.trans hsecond)

/-! ### Words -/

theorem IsLiteral.digits_valid {text : List Char} {literal : Literal} (h : IsLiteral text literal) :
    literal.digits ≠ [] ∧ Digit.AllDigits literal.radix literal.digits := by
  cases h with
  | decimal digits hne hdigits =>
    exact ⟨hne, fun c hc => Digit.isSome_value?_ten.mpr (hdigits c hc)⟩
  | hex mark digits hmark hne hdigits => exact ⟨hne, hdigits⟩

theorem Continues.isLiteral {text : List Char} {literals : List Literal}
    (h : Continues text literals) : ∀ literal ∈ literals, ∃ limb, IsLiteral limb literal := by
  induction h with
  | done => simp
  | more separator limb rest literal literals _ hlit _ ih =>
    exact List.forall_mem_cons.mpr ⟨⟨limb, hlit⟩, ih⟩

theorem IsElements.isLiteral {text : List Char} {literals : List Literal}
    (h : IsElements text literals) : ∀ literal ∈ literals, ∃ limb, IsLiteral limb literal := by
  cases h with
  | none => simp
  | some limb rest literal literals hlit hcontinues =>
    exact List.forall_mem_cons.mpr ⟨⟨limb, hlit⟩, hcontinues.isLiteral⟩

theorem IsBracketed.isLiteral {text : List Char} {literals : List Literal}
    (h : IsBracketed text literals) : ∀ literal ∈ literals, ∃ limb, IsLiteral limb literal := by
  cases h with
  | braces before inner after literals _ hinner _ => exact hinner.isLiteral
  | brackets before inner after literals _ hinner _ => exact hinner.isLiteral

/-- All literals of a list are written in its text. -/
theorem Derives.isLiteral {text : List Char} {literals : List Literal}
    (h : Derives text literals) : ∀ literal ∈ literals, ∃ limb, IsLiteral limb literal := by
  cases h with
  | dump before text after literals _ hdump _ =>
    cases hdump with
    | dump b₁ b₂ b₃ inner b₄ literals _ _ _ hinner _ => exact hinner.isLiteral
  | bracketed before text after literals _ hbracketed _ => exact hbracketed.isLiteral
  | elements before text after literals _ helements _ => exact helements.isLiteral

/-- Without a sign in front, only the size of a literal decides whether it is a word. -/
theorem word_eq_ok_iff {text : List Char} {literal : Literal} {word : UInt32}
    (h : IsLiteral text literal) : literal.word = .ok word ↔ literal.value = word.toNat := by
  obtain ⟨hne, hdigits⟩ := h.digits_valid
  have hradix : 0 < literal.radix := by
    cases literal <;> simp [Literal.radix]
  have hread : literal.word = .ok word ↔
      Numeral.readWord literal.radix literal.digits = .ok word := by
    unfold Literal.word
    cases Numeral.readWord literal.radix literal.digits with
    | ok found => simp
    | error fault => simp
  rw [hread, Numeral.readWord_eq_ok_iff hradix]
  constructor
  · intro hword
    obtain ⟨digits, hsigned | hsigned, _, _, hvalue⟩ := hword
    · rw [← hsigned] at hvalue
      exact hvalue
    · rw [hsigned] at hdigits
      exact absurd hdigits (Digit.not_allDigits_plus _ _)
  · intro hvalue
    exact ⟨literal.digits, Or.inl rfl, hne, hdigits, hvalue⟩

theorem literalWords_eq_ok_iff {literals : List Literal} {words : List UInt32}
    (h : ∀ literal ∈ literals, ∃ limb, IsLiteral limb literal) :
    literalWords literals = .ok words ↔
      literals.map Literal.value = words.map UInt32.toNat := by
  induction literals generalizing words with
  | nil => cases words <;> simp [literalWords]
  | cons literal literals ih =>
    obtain ⟨⟨limb, hlit⟩, hrest⟩ := List.forall_mem_cons.mp h
    have hhead : ∀ word, literal.word = .ok word ↔ literal.value = word.toNat :=
      fun _ => word_eq_ok_iff hlit
    cases words with
    | nil =>
      simp only [literalWords]
      cases literal.word with
      | error fault => simp
      | ok word => cases literalWords literals <;> simp [Except.map]
    | cons word words =>
      rw [List.map_cons, List.map_cons, List.cons.injEq, ← hhead, ← ih hrest]
      simp only [literalWords]
      cases literal.word with
      | error fault => simp
      | ok found => cases literalWords literals <;> simp [Except.map]

/-- Exactly the texts of the notation are read, as the words that they denote. -/
theorem readChars_eq_ok_iff {text : List Char} {words : List UInt32} :
    readChars text = .ok words ↔ Denotes text words := by
  rw [readChars_eq, bind_eq_ok_iff, Denotes]
  constructor
  · intro h
    obtain ⟨literals, hliterals, hwords⟩ := h
    have hderives := readLiterals_eq_ok_iff.mp hliterals
    exact ⟨literals, hderives, (literalWords_eq_ok_iff hderives.isLiteral).mp hwords⟩
  · intro h
    obtain ⟨literals, hderives, hvalues⟩ := h
    exact ⟨literals, readLiterals_eq_ok_iff.mpr hderives,
      (literalWords_eq_ok_iff hderives.isLiteral).mpr hvalues⟩

/-- A text is read as a list of words exactly if it has a derivation whose literals denote these
words. All its derivations have the same literals. -/
theorem read_eq_ok_iff_denotes (text : String) :
    (∀ words, read text = .ok words ↔ Denotes text.toList words) ∧
      ∀ first second, Derives text.toList first → Derives text.toList second → first = second :=
  ⟨fun _ => readChars_eq_ok_iff, fun _ _ => derives_unique⟩

/-- A dump of two limbs, one with zeros in front and one behind the capital mark. -/
theorem read_dump_of_two_limbs :
    Denotes "\x7b_M_elems = \x7b007, 0Xff\x7d\x7d".toList [7, 255] ∧
      ∀ literals, Derives "\x7b_M_elems = \x7b007, 0Xff\x7d\x7d".toList literals →
        literals = [.decimal ['0', '0', '7'], .hex ['f', 'f']] := by
  obtain ⟨hdenotes, hunique⟩ := read_eq_ok_iff_denotes "\x7b_M_elems = \x7b007, 0Xff\x7d\x7d"
  have hread : read "\x7b_M_elems = \x7b007, 0Xff\x7d\x7d" = .ok [7, 255] := by decide +kernel
  have hliterals : readLiterals "\x7b_M_elems = \x7b007, 0Xff\x7d\x7d".toList =
      .ok [.decimal ['0', '0', '7'], .hex ['f', 'f']] := by decide +kernel
  refine ⟨(hdenotes [7, 255]).mp hread, fun literals hderives => ?_⟩
  exact hunique _ _ hderives (derives_of_readLiterals hliterals)

end Ident160.LimbList
