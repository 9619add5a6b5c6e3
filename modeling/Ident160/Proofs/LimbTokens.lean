import Ident160.LimbList.Reader
import Ident160.Proofs.Numerals
import Mathlib.Data.List.TakeWhile

/-!
The tokens of limb lists: blanks, literals and separators. What a reader takes is a token of the
grammar, and a token is taken whole as long as the text behind it cannot carry it on. `Ends` says
that a text does not go on with a character of a class, which is all that the greedy readers ask
of what follows.
-/

namespace Ident160.LimbList

/-- The text is over, or its first character is outside the class. -/
def Ends (inClass : Char → Bool) (text : List Char) : Prop := ∀ c ∈ text.head?, inClass c = false

theorem ends_nil (inClass : Char → Bool) : Ends inClass [] := by
  simp [Ends]

theorem ends_cons {inClass : Char → Bool} {c : Char} {text : List Char} :
    Ends inClass (c :: text) ↔ inClass c = false := by
  simp [Ends]

theorem Ends.mono {inClass other : Char → Bool} {text : List Char} (h : Ends inClass text)
    (hsub : ∀ c, other c = true → inClass c = true) : Ends other text := by
  intro c hc
  have hout := h c hc
  by_contra hin
  rw [hsub c (by simpa using hin)] at hout
  contradiction

/-! ### Blanks -/

theorem blanks_nil : Blanks [] := by
  simp [Blanks]

theorem skipBlanks_append {before : List Char} (h : Blanks before) (text : List Char) :
    skipBlanks (before ++ text) = skipBlanks text :=
  List.dropWhile_append_of_pos h

theorem skipBlanks_eq_nil {text : List Char} (h : Blanks text) : skipBlanks text = [] :=
  List.dropWhile_eq_nil_iff.mpr h

theorem blanks_of_skipBlanks_eq_nil {text : List Char} (h : skipBlanks text = []) : Blanks text :=
  List.dropWhile_eq_nil_iff.mp h

theorem ends_skipBlanks (text : List Char) : Ends isBlank (skipBlanks text) := by
  have hhead := List.head?_dropWhile_not isBlank text
  intro c hc
  have hc' : (text.dropWhile isBlank).head? = some c := hc
  rw [hc'] at hhead
  simpa using hhead

theorem skipBlanks_of_ends {text : List Char} (h : Ends isBlank text) : skipBlanks text = text := by
  cases text with
  | nil => rfl
  | cons c text => exact List.dropWhile_cons_of_neg (by simp [ends_cons.mp h])

theorem skipBlanks_skipBlanks (text : List Char) : skipBlanks (skipBlanks text) = skipBlanks text :=
  skipBlanks_of_ends (ends_skipBlanks text)

theorem exists_blanks (text : List Char) :
    ∃ blanks, Blanks blanks ∧ text = blanks ++ skipBlanks text :=
  ⟨text.takeWhile isBlank, fun _ hc => List.mem_takeWhile_imp hc,
    List.takeWhile_append_dropWhile.symm⟩

/-! ### Runs and literals -/

theorem readRun_sound {inClass : Char → Bool} {text run rest : List Char}
    (h : readRun inClass text = some (run, rest)) :
    text = run ++ rest ∧ run ≠ [] ∧ ∀ c ∈ run, inClass c = true := by
  unfold readRun at h
  split at h
  · simp at h
  · next c cs htake =>
    simp only [Option.some.injEq, Prod.mk.injEq] at h
    obtain ⟨rfl, rfl⟩ := h
    refine ⟨?_, by simp, ?_⟩
    · rw [← htake, List.takeWhile_append_dropWhile]
    · rw [← htake]
      exact fun _ hc => List.mem_takeWhile_imp hc

/-- A run of a class is taken together with what follows it in the class. -/
theorem readRun_longest {inClass : Char → Bool} {run : List Char} (hne : run ≠ [])
    (hrun : ∀ c ∈ run, inClass c = true) (behind : List Char) :
    readRun inClass (run ++ behind) =
      some (run ++ behind.takeWhile inClass, behind.dropWhile inClass) := by
  unfold readRun
  rw [List.takeWhile_append_of_pos hrun, List.dropWhile_append_of_pos hrun]
  cases run with
  | nil => exact absurd rfl hne
  | cons c run => rfl

/-- A run is taken up to the first character outside its class. -/
theorem readRun_append {inClass : Char → Bool} {run rest : List Char} (hne : run ≠ [])
    (hrun : ∀ c ∈ run, inClass c = true) (hrest : Ends inClass rest) :
    readRun inClass (run ++ rest) = some (run, rest) := by
  have hstop : rest.takeWhile inClass = [] ∧ rest.dropWhile inClass = rest := by
    cases rest with
    | nil => exact ⟨rfl, rfl⟩
    | cons c rest =>
      have hc := ends_cons.mp hrest
      exact ⟨List.takeWhile_cons_of_neg (by simp [hc]), List.dropWhile_cons_of_neg (by simp [hc])⟩
  rw [readRun_longest hne hrun, hstop.1, hstop.2, List.append_nil]

theorem readRun_eq_none {inClass : Char → Bool} {text : List Char} (h : Ends inClass text) :
    readRun inClass text = none := by
  cases text with
  | nil => rfl
  | cons c text => simp [readRun, ends_cons.mp h]

theorem readMark_eq_some_iff {text rest : List Char} :
    readMark text = some rest ↔ ∃ mark, (mark = 'x' ∨ mark = 'X') ∧ text = '0' :: mark :: rest := by
  constructor
  · intro h
    unfold readMark at h
    split at h
    · simp only [Option.some.injEq] at h
      exact ⟨'x', Or.inl rfl, by rw [h]⟩
    · simp only [Option.some.injEq] at h
      exact ⟨'X', Or.inr rfl, by rw [h]⟩
    · simp at h
  · rintro ⟨mark, rfl | rfl, rfl⟩
    · rfl
    · rfl

theorem readLiteral_sound {text rest : List Char} {literal : Literal}
    (h : readLiteral text = some (literal, rest)) :
    ∃ taken, text = taken ++ rest ∧ IsLiteral taken literal := by
  unfold readLiteral at h
  split at h
  · next result hhex =>
    rw [Option.some.injEq] at h
    subst h
    unfold readHex at hhex
    split at hhex
    · simp at hhex
    · next digits hmark =>
      obtain ⟨mark, hx, rfl⟩ := readMark_eq_some_iff.mp hmark
      obtain ⟨⟨run, behind⟩, hrun, heq⟩ := Option.map_eq_some_iff.mp hhex
      obtain ⟨rfl, rfl⟩ := Prod.mk.inj heq
      obtain ⟨rfl, hne, hdigits⟩ := readRun_sound hrun
      exact ⟨'0' :: mark :: run, rfl, .hex mark run hx hne hdigits⟩
  · obtain ⟨⟨run, behind⟩, hrun, heq⟩ := Option.map_eq_some_iff.mp h
    obtain ⟨rfl, rfl⟩ := Prod.mk.inj heq
    obtain ⟨rfl, hne, hdigits⟩ := readRun_sound hrun
    exact ⟨run, rfl, .decimal run hne hdigits⟩

/-- The characters that may carry a literal on: digits of either radix and the mark. -/
def carriesLiteral (c : Char) : Bool := Digit.isHex c || c = 'x' || c = 'X'

theorem carriesLiteral_of_isHex {c : Char} (h : Digit.isHex c = true) :
    carriesLiteral c = true := by
  simp [carriesLiteral, h]

theorem carriesLiteral_of_isDigit {c : Char} (h : c.isDigit = true) : carriesLiteral c = true :=
  carriesLiteral_of_isHex (Digit.isHex_of_isDigit h)

/-- A mark that starts in a decimal literal ends behind it: the literal is the zero, as the mark's
letter is no decimal digit. -/
theorem readMark_decimal {digits rest behind : List Char} (hne : digits ≠ [])
    (hdigits : ∀ c ∈ digits, c.isDigit = true) (h : readMark (digits ++ rest) = some behind) :
    ∃ mark, (mark = 'x' ∨ mark = 'X') ∧ rest = mark :: behind := by
  obtain ⟨mark, hmark, heq⟩ := readMark_eq_some_iff.mp h
  cases digits with
  | nil => exact absurd rfl hne
  | cons d digits =>
    have htail : digits ++ rest = mark :: behind := (List.cons.inj heq).2
    cases digits with
    | nil => exact ⟨mark, hmark, htail⟩
    | cons e digits =>
      have he : e.isDigit = true := hdigits e (by simp)
      rw [(List.cons.inj htail).1] at he
      rcases hmark with rfl | rfl
      · exact absurd he (by decide)
      · exact absurd he (by decide)

/-- A zero in front of a decimal literal is no mark where what follows the literal does not bring
the mark's letter. -/
theorem readMark_decimal_eq_none {digits rest : List Char} (hne : digits ≠ [])
    (hdigits : ∀ c ∈ digits, c.isDigit = true) (hrest : Ends carriesLiteral rest) :
    readMark (digits ++ rest) = none := by
  by_contra hsome
  obtain ⟨behind, hbehind⟩ := Option.ne_none_iff_exists'.mp hsome
  obtain ⟨mark, hmark, rfl⟩ := readMark_decimal hne hdigits hbehind
  rcases hmark with rfl | rfl
  · exact absurd (ends_cons.mp hrest) (by decide)
  · exact absurd (ends_cons.mp hrest) (by decide)

/-- A literal is taken whole where no character behind it could be part of it. -/
theorem readLiteral_append {text rest : List Char} {literal : Literal} (h : IsLiteral text literal)
    (hrest : Ends carriesLiteral rest) : readLiteral (text ++ rest) = some (literal, rest) := by
  cases h with
  | decimal digits hne hdigits =>
    have hmark := readMark_decimal_eq_none hne hdigits hrest
    have hrun := readRun_append hne hdigits (hrest.mono fun _ => carriesLiteral_of_isDigit)
    simp only [readLiteral, readHex, hmark, hrun, Option.map_some]
  | hex mark digits hmark hne hdigits =>
    have hread : readMark ('0' :: mark :: digits ++ rest) = some (digits ++ rest) :=
      readMark_eq_some_iff.mpr ⟨mark, hmark, rfl⟩
    have hrun := readRun_append hne hdigits (hrest.mono fun _ => carriesLiteral_of_isHex)
    simp only [readLiteral, readHex, hread, hrun, Option.map_some]

/-- Whatever stands behind a literal, the reader comes at least to its end. It may go on with the
digits that follow, and behind a zero with a mark. -/
theorem readLiteral_reaches {text : List Char} {literal : Literal} (h : IsLiteral text literal)
    (behind : List Char) :
    ∃ found last, readLiteral (text ++ behind) = some (found, last) ∧ last <:+ behind := by
  cases h with
  | decimal digits hne hdigits =>
    cases hread : readHex (text ++ behind) with
    | none =>
      have hrun := readRun_longest hne hdigits behind
      refine ⟨.decimal (text ++ behind.takeWhile Char.isDigit), behind.dropWhile Char.isDigit,
        ?_, List.dropWhile_suffix _⟩
      simp only [readLiteral, hread, hrun, Option.map_some]
    | some result =>
      obtain ⟨found, last⟩ := result
      refine ⟨found, last, by simp only [readLiteral, hread], ?_⟩
      unfold readHex at hread
      split at hread
      · simp at hread
      · next rest hmark =>
        obtain ⟨mark, _, rfl⟩ := readMark_decimal hne hdigits hmark
        obtain ⟨⟨run, last'⟩, hrun, heq⟩ := Option.map_eq_some_iff.mp hread
        obtain ⟨rfl, rfl⟩ := Prod.mk.inj heq
        obtain ⟨rfl, -, -⟩ := readRun_sound hrun
        exact ⟨mark :: run, rfl⟩
  | hex mark digits hmark hne hdigits =>
    have hread : readMark ('0' :: mark :: digits ++ behind) = some (digits ++ behind) :=
      readMark_eq_some_iff.mpr ⟨mark, hmark, rfl⟩
    have hrun := readRun_longest hne hdigits behind
    refine ⟨.hex (digits ++ behind.takeWhile Digit.isHex), behind.dropWhile Digit.isHex, ?_,
      List.dropWhile_suffix _⟩
    simp only [readLiteral, readHex, hread, hrun, Option.map_some]

theorem readLiteral_eq_none {text : List Char} (h : Ends Char.isDigit text) :
    readLiteral text = none := by
  have hmark : readMark text = none := by
    by_contra hsome
    obtain ⟨behind, hbehind⟩ := Option.ne_none_iff_exists'.mp hsome
    obtain ⟨mark, _, rfl⟩ := readMark_eq_some_iff.mp hbehind
    exact absurd (ends_cons.mp h) (by decide)
  simp only [readLiteral, readHex, hmark, readRun_eq_none h, Option.map_none]

theorem IsLiteral.head {text : List Char} {literal : Literal} (h : IsLiteral text literal) :
    ∃ d rest, text = d :: rest ∧ d.isDigit = true := by
  cases h with
  | decimal digits hne hdigits =>
    obtain ⟨d, rest, rfl⟩ := List.exists_cons_of_ne_nil hne
    exact ⟨d, rest, rfl, hdigits d (by simp)⟩
  | hex mark digits => exact ⟨'0', mark :: digits, rfl, by decide⟩

/-! ### Separators -/

def carriesSeparator (c : Char) : Bool := isBlank c || c = ','

theorem readSeparator_sound {text rest : List Char} (h : readSeparator text = some rest) :
    ∃ taken, text = taken ++ rest ∧ IsSeparator taken := by
  obtain ⟨before, hbefore, htext⟩ := exists_blanks text
  unfold readSeparator at h
  split at h
  · next behind hskip =>
    obtain ⟨after, hafter, hbehind⟩ := exists_blanks behind
    rw [Option.some.injEq] at h
    rw [h] at hbehind
    refine ⟨before ++ ',' :: after, ?_, .comma before after hbefore hafter⟩
    rw [htext, hskip, hbehind, List.append_assoc, List.cons_append]
  · split at h
    · next hlength =>
      rw [Option.some.injEq] at h
      subst h
      refine ⟨before, htext, .blanks before hbefore ?_⟩
      rintro rfl
      rw [List.nil_append] at htext
      rw [← htext] at hlength
      exact Nat.lt_irrefl _ hlength
    · simp at h

/-- A separator is taken whole where no character behind it could be part of it. -/
theorem readSeparator_append {separator text : List Char} (h : IsSeparator separator)
    (htext : Ends carriesSeparator text) : readSeparator (separator ++ text) = some text := by
  have hskip : skipBlanks text = text :=
    skipBlanks_of_ends (htext.mono fun c hc => by simp [carriesSeparator, hc])
  cases h with
  | comma before after hbefore hafter =>
    have hcomma : skipBlanks (before ++ ',' :: after ++ text) = ',' :: (after ++ text) := by
      rw [List.append_assoc, skipBlanks_append hbefore]
      exact skipBlanks_of_ends (ends_cons.mpr (by decide))
    rw [readSeparator, hcomma]
    exact congrArg some ((skipBlanks_append hafter text).trans hskip)
  | blanks separator hblank hne =>
    have hpos : 0 < separator.length := List.length_pos_iff.mpr hne
    have hlength : text.length < (separator ++ text).length := by
      rw [List.length_append]
      omega
    rw [readSeparator, skipBlanks_append hblank, hskip]
    split
    · next behind =>
      exact absurd (ends_cons.mp htext) (by simp [carriesSeparator])
    · exact if_pos hlength

theorem IsSeparator.head {separator : List Char} (h : IsSeparator separator) :
    ∃ c rest, separator = c :: rest ∧ carriesSeparator c = true := by
  cases h with
  | comma before after hbefore _ =>
    cases before with
    | nil => exact ⟨',', after, rfl, by simp [carriesSeparator]⟩
    | cons c before =>
      exact ⟨c, before ++ ',' :: after, rfl, by simp [carriesSeparator, hbefore c (by simp)]⟩
  | blanks separator hblank hne =>
    obtain ⟨c, rest, rfl⟩ := List.exists_cons_of_ne_nil hne
    exact ⟨c, rest, rfl, by simp [carriesSeparator, hblank c (by simp)]⟩

end Ident160.LimbList
