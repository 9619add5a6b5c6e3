import Ident160.Command.Basic
import Ident160.Proofs.LimbNotation
import Mathlib.Data.List.Forall2

/-!
Limbs given one by one against limbs given as a list. A text without commas and brackets falls
into pieces at its blanks, and the only derivation it can have takes every piece for one literal.
So a list is as good as its pieces, and a piece is read on its own just as in a list, except that
the reader of single limbs knows a plus sign and the notation does not.
-/

namespace Ident160.LimbList

/-- A text with nothing in it that sets limbs apart or encloses them. -/
def Plain (text : List Char) : Prop :=
  ∀ c ∈ text, isBlank c = false ∧ c ∉ [',', '\x7b', '\x7d', '[', ']']

instance (text : List Char) : Decidable (Plain text) :=
  decidable_of_iff (text.all fun c => !isBlank c && c ∉ [',', '\x7b', '\x7d', '[', ']'])
    (by simp [Plain])

/-- The runs of characters between blanks. -/
def pieces (text : List Char) : List (List Char) := (text.splitOnP isBlank).filter (· ≠ [])

/-! ### Pieces -/

theorem pieces_append_blank {c : Char} (hc : isBlank c = true) (front rest : List Char) :
    pieces (front ++ c :: rest) = pieces front ++ pieces rest := by
  rw [pieces, List.splitOnP_append_cons front rest hc, List.filter_append]
  rfl

theorem pieces_of_unbroken {text : List Char} (h : ∀ c ∈ text, isBlank c = false) :
    pieces text = [text].filter (· ≠ []) := by
  rw [pieces, List.splitOnP_eq_singleton h]

theorem pieces_nil : pieces [] = [] := rfl

theorem pieces_blanks_append {blanks : List Char} (h : Blanks blanks) (rest : List Char) :
    pieces (blanks ++ rest) = pieces rest := by
  induction blanks with
  | nil => rfl
  | cons c blanks ih =>
    obtain ⟨hc, hblanks⟩ := List.forall_mem_cons.mp h
    have hsplit : pieces ([] ++ c :: (blanks ++ rest)) = pieces [] ++ pieces (blanks ++ rest) :=
      pieces_append_blank hc [] _
    rw [List.cons_append, ← List.nil_append (c :: (blanks ++ rest)), hsplit, ih hblanks]
    rfl

theorem pieces_append {front rest : List Char} (h : Ends (fun c => !isBlank c) rest) :
    pieces (front ++ rest) = pieces front ++ pieces rest := by
  cases rest with
  | nil => rw [pieces_nil, List.append_nil, List.append_nil]
  | cons c rest =>
    have hc : isBlank c = true := by simpa using ends_cons.mp h
    have hrest : pieces (c :: rest) = pieces rest := pieces_append_blank hc [] rest
    rw [pieces_append_blank hc, hrest]

/-- Plain texts with blanks between them are the pieces of what they make. -/
theorem pieces_joined {texts : List (List Char)} (h : ∀ text ∈ texts, Plain text) :
    pieces ([' '].intercalate texts) = texts.filter (· ≠ []) := by
  induction texts with
  | nil => rfl
  | cons text texts ih =>
    obtain ⟨hplain, hrest⟩ := List.forall_mem_cons.mp h
    have hhead := pieces_of_unbroken fun c hc => (hplain c hc).1
    cases texts with
    | nil => rw [List.intercalate_singleton, hhead]
    | cons next texts =>
      rw [List.intercalate_cons_cons, List.append_assoc, List.singleton_append,
        pieces_append_blank (by decide), hhead, ih hrest, ← List.filter_append]
      rfl

/-! ### Derivations without commas and brackets -/

theorem IsLiteral.carries {text : List Char} {literal : Literal} (h : IsLiteral text literal) :
    ∀ c ∈ text, carriesLiteral c = true := by
  cases h with
  | decimal digits _ hdigits => exact fun c hc => carriesLiteral_of_isDigit (hdigits c hc)
  | hex mark digits hmark _ hdigits =>
    refine List.forall_mem_cons.mpr ⟨by decide, List.forall_mem_cons.mpr ⟨?_, ?_⟩⟩
    · rcases hmark with rfl | rfl <;> decide
    · exact fun c hc => carriesLiteral_of_isHex (hdigits c hc)

theorem IsLiteral.unbroken {text : List Char} {literal : Literal} (h : IsLiteral text literal) :
    ∀ c ∈ text, isBlank c = false := by
  intro c hc
  by_contra hblank
  have hcarries := h.carries c hc
  rw [carriesLiteral_of_carriesSeparator (by simp [carriesSeparator, hblank])] at hcarries
  contradiction

theorem IsLiteral.no_plus {text : List Char} {literal : Literal} (h : IsLiteral text literal) :
    '+' ∉ text := by
  intro hplus
  exact absurd (h.carries '+' hplus) (by decide)

theorem IsLiteral.pieces_eq {text : List Char} {literal : Literal} (h : IsLiteral text literal) :
    pieces text = [text] := by
  obtain ⟨d, rest, rfl, _⟩ := h.head
  rw [pieces_of_unbroken h.unbroken]
  rfl

/-- Without commas a separator is a run of blanks. -/
theorem IsSeparator.blanks_of_no_comma {separator : List Char} (h : IsSeparator separator)
    (hcomma : ',' ∉ separator) : Blanks separator := by
  cases h with
  | comma before after _ _ => simp at hcomma
  | blanks _ hblank _ => exact hblank

theorem Continues.starts_blank {text : List Char} {literals : List Literal}
    (h : Continues text literals) (hcomma : ',' ∉ text) : Ends (fun c => !isBlank c) text := by
  cases h with
  | done => exact ends_nil _
  | more separator limb rest literal literals hsep _ _ =>
    have hno : ',' ∉ separator := fun hc => hcomma (by simp [hc])
    obtain ⟨c, tail, rfl, _⟩ := hsep.head
    have hc := hsep.blanks_of_no_comma hno c (by simp)
    exact ends_cons.mpr (by simp [hc])

theorem Continues.pieces_forall₂ {text : List Char} {literals : List Literal}
    (h : Continues text literals) (hcomma : ',' ∉ text) :
    List.Forall₂ IsLiteral (pieces text) literals := by
  induction h with
  | done => exact .nil
  | more separator limb rest literal literals hsep hlit hcontinues ih =>
    have hno : ',' ∉ separator := fun hc => hcomma (by simp [hc])
    have hrest : ',' ∉ rest := fun hc => hcomma (by simp [hc])
    rw [List.append_assoc, pieces_blanks_append (hsep.blanks_of_no_comma hno),
      pieces_append (hcontinues.starts_blank hrest), hlit.pieces_eq]
    exact .cons hlit (ih hrest)

theorem IsElements.pieces_forall₂ {text : List Char} {literals : List Literal}
    (h : IsElements text literals) (hcomma : ',' ∉ text) :
    List.Forall₂ IsLiteral (pieces text) literals := by
  cases h with
  | none => exact .nil
  | some limb rest literal literals hlit hcontinues =>
    have hrest : ',' ∉ rest := fun hc => hcomma (by simp [hc])
    rw [pieces_append (hcontinues.starts_blank hrest), hlit.pieces_eq]
    exact .cons hlit (hcontinues.pieces_forall₂ hrest)

/-- Without commas and brackets, a derivation takes the pieces of the text for its literals. -/
theorem Derives.pieces_forall₂ {text : List Char} {literals : List Literal}
    (h : Derives text literals) (hmarks : ∀ c ∈ text, c ∉ [',', '\x7b', '\x7d', '[', ']']) :
    List.Forall₂ IsLiteral (pieces text) literals := by
  cases h with
  | dump before inner after literals _ hdump _ =>
    cases hdump with
    | dump => exact absurd (hmarks '\x7b' (by simp)) (by simp)
  | bracketed before inner after literals _ hbracketed _ =>
    obtain ⟨c, tail, rfl, hc⟩ := hbracketed.head
    have hmark := hmarks c (by simp)
    rcases hc with rfl | rfl <;> simp at hmark
  | elements before inner after literals hbefore helements hafter =>
    have hcomma : ',' ∉ inner := fun hc => hmarks ',' (by simp [hc]) (by simp)
    have hafter' : Ends (fun c => !isBlank c) after := by
      intro c hc
      simp [hafter c (List.mem_of_mem_head? hc)]
    have hnone : pieces after = [] := by
      have hall := pieces_blanks_append hafter []
      rw [List.append_nil] at hall
      exact hall
    rw [pieces_append hafter', pieces_blanks_append hbefore, hnone, List.append_nil]
    exact helements.pieces_forall₂ hcomma

theorem joined_continues (text : List Char) {texts : List (List Char)} {literals : List Literal}
    (h : List.Forall₂ IsLiteral texts literals) :
    ∃ rest, [' '].intercalate (text :: texts) = text ++ rest ∧ Continues rest literals := by
  induction h generalizing text with
  | nil => exact ⟨[], by rw [List.intercalate_singleton, List.append_nil], .done⟩
  | @cons next literal texts literals hlit _ ih =>
    obtain ⟨rest, hrest, hcontinues⟩ := ih next
    have hsep : IsSeparator [' '] := .blanks [' '] (by simp [Blanks, isBlank]) (by simp)
    refine ⟨[' '] ++ next ++ rest, ?_, .more _ _ _ _ _ hsep hlit hcontinues⟩
    rw [List.intercalate_cons_cons, hrest]
    simp only [List.append_assoc]

/-- Literals with blanks between them make a list. -/
theorem derives_joined {texts : List (List Char)} {literals : List Literal}
    (h : List.Forall₂ IsLiteral texts literals) : Derives ([' '].intercalate texts) literals := by
  have helements : IsElements ([' '].intercalate texts) literals := by
    cases h with
    | nil => exact .none
    | @cons text literal texts literals hlit hrest =>
      obtain ⟨rest, heq, hcontinues⟩ := joined_continues text hrest
      rw [heq]
      exact .some _ _ _ _ hlit hcontinues
  have hderives := Derives.elements [] _ [] literals blanks_nil helements blanks_nil
  rw [List.nil_append, List.append_nil] at hderives
  exact hderives

theorem mem_joined {texts : List (List Char)} {c : Char} (h : c ∈ [' '].intercalate texts) :
    c = ' ' ∨ ∃ text ∈ texts, c ∈ text := by
  induction texts with
  | nil => simp at h
  | cons text texts ih =>
    cases texts with
    | nil =>
      rw [List.intercalate_singleton] at h
      exact Or.inr ⟨text, by simp, h⟩
    | cons next texts =>
      rw [List.intercalate_cons_cons, List.append_assoc, List.mem_append] at h
      rcases h with hhead | hrest
      · exact Or.inr ⟨text, by simp, hhead⟩
      · rcases List.mem_cons.mp hrest with hblank | hrest
        · exact Or.inl hblank
        · rcases ih hrest with hblank | ⟨found, hmem, hc⟩
          · exact Or.inl hblank
          · exact Or.inr ⟨found, List.mem_cons_of_mem _ hmem, hc⟩

/-- A list of plain texts has as many limbs as texts only if every text is one limb. -/
theorem derives_joined_iff {texts : List (List Char)} {literals : List Literal}
    (hplain : ∀ text ∈ texts, Plain text) (hlength : literals.length = texts.length) :
    Derives ([' '].intercalate texts) literals ↔ List.Forall₂ IsLiteral texts literals := by
  constructor
  · intro h
    have hmarks : ∀ c ∈ [' '].intercalate texts, c ∉ [',', '\x7b', '\x7d', '[', ']'] := by
      intro c hc
      rcases mem_joined hc with rfl | ⟨text, hmem, hc⟩
      · simp
      · exact (hplain text hmem c hc).2
    have hpieces := h.pieces_forall₂ hmarks
    rw [pieces_joined hplain] at hpieces
    have hall : (texts.filter (· ≠ [])).length = texts.length := by
      rw [hpieces.length_eq, hlength]
    rw [List.filter_eq_self.mpr (List.length_filter_eq_length_iff.mp hall)] at hpieces
    exact hpieces
  · exact derives_joined

/-! ### Values -/

theorem forall₂_denotes_iff {texts : List (List Char)} {words : List UInt32} :
    (∃ literals, List.Forall₂ IsLiteral texts literals ∧
        literals.map Literal.value = words.map UInt32.toNat) ↔
      List.Forall₂ (fun text word => ∃ literal, IsLiteral text literal ∧
        literal.value = word.toNat) texts words := by
  induction texts generalizing words with
  | nil => cases words <;> simp
  | cons text texts ih =>
    cases words with
    | nil => simp
    | cons word words =>
      rw [List.forall₂_cons, ← ih]
      constructor
      · intro h
        obtain ⟨literals, hliterals, hvalues⟩ := h
        cases hliterals with
        | @cons _ literal _ literals hlit hrest =>
          obtain ⟨hvalue, hvalues⟩ := List.cons.inj hvalues
          exact ⟨⟨literal, hlit, hvalue⟩, literals, hrest, hvalues⟩
      · intro h
        obtain ⟨⟨literal, hlit, hvalue⟩, literals, hrest, hvalues⟩ := h
        refine ⟨literal :: literals, .cons hlit hrest, ?_⟩
        rw [List.map_cons, List.map_cons, hvalue, hvalues]

/-- A list of plain texts is read as one limb for each text exactly if each is a literal. -/
theorem readChars_joined_iff {texts : List (List Char)} {words : List UInt32}
    (hplain : ∀ text ∈ texts, Plain text) (hlength : words.length = texts.length) :
    readChars ([' '].intercalate texts) = .ok words ↔
      List.Forall₂ (fun text word => ∃ literal, IsLiteral text literal ∧
        literal.value = word.toNat) texts words := by
  rw [readChars_eq_ok_iff, Denotes, ← forall₂_denotes_iff]
  apply exists_congr
  intro literals
  constructor
  · intro h
    have hcount : literals.length = texts.length := by
      have hmaps := congrArg List.length h.2
      rw [List.length_map, List.length_map] at hmaps
      omega
    exact ⟨(derives_joined_iff hplain hcount).mp h.1, h.2⟩
  · intro h
    exact ⟨derives_joined h.1, h.2⟩

theorem readChars_single_iff {text : List Char} {word : UInt32} (hplain : Plain text) :
    readChars text = .ok [word] ↔
      ∃ literal, IsLiteral text literal ∧ literal.value = word.toNat := by
  have hall : ∀ t ∈ [text], Plain t := by simpa using hplain
  have hjoined := @readChars_joined_iff [text] [word] hall rfl
  rw [List.intercalate_singleton, List.forall₂_cons] at hjoined
  rw [hjoined]
  exact and_iff_left .nil

end Ident160.LimbList

namespace Ident160

open LimbList

theorem readLimbChars_eq (text : List Char) :
    readLimbChars text =
      match readMark text with
      | some digits => Numeral.readWord 16 digits
      | none => Numeral.readWord 10 text := by
  unfold readLimbChars
  split
  · rfl
  · rfl
  · next hx hX =>
    have hmark : readMark text = none := by
      by_contra hsome
      obtain ⟨digits, hdigits⟩ := Option.ne_none_iff_exists'.mp hsome
      obtain ⟨mark, rfl | rfl, heq⟩ := readMark_eq_some_iff.mp hdigits
      · exact hx digits heq
      · exact hX digits heq
    rw [hmark]

/-- Digits behind a plus sign are no digits of the whole text, so without one they are all of it. -/
theorem readWord_of_no_plus {radix : Nat} {text : List Char} {word : UInt32} (hradix : 0 < radix)
    (hplus : '+' ∉ text) (h : Numeral.readWord radix text = .ok word) :
    text ≠ [] ∧ Digit.AllDigits radix text ∧ Digit.written radix text = word.toNat := by
  obtain ⟨digits, rfl | rfl, hne, hdigits, hvalue⟩ := (Numeral.readWord_eq_ok_iff hradix).mp h
  · exact ⟨hne, hdigits, hvalue⟩
  · simp at hplus

/-- Without a plus sign the reader of single limbs knows just the literals of the notation. -/
theorem readLimbChars_iff {text : List Char} {word : UInt32} :
    readLimbChars text = .ok word ∧ '+' ∉ text ↔
      ∃ literal, IsLiteral text literal ∧ literal.value = word.toNat := by
  rw [readLimbChars_eq]
  constructor
  · intro h
    obtain ⟨hread, hplus⟩ := h
    cases hmark : readMark text with
    | some digits =>
      rw [hmark] at hread
      obtain ⟨mark, hx, rfl⟩ := readMark_eq_some_iff.mp hmark
      have hbehind : '+' ∉ digits := fun hc => hplus (by simp [hc])
      obtain ⟨hne, hdigits, hvalue⟩ := readWord_of_no_plus (by decide) hbehind hread
      exact ⟨.hex digits, .hex mark digits hx hne hdigits, hvalue⟩
    | none =>
      rw [hmark] at hread
      obtain ⟨hne, hdigits, hvalue⟩ := readWord_of_no_plus (by decide) hplus hread
      have hdecimal : ∀ c ∈ text, c.isDigit = true :=
        fun c hc => Digit.isSome_value?_ten.mp (hdigits c hc)
      exact ⟨.decimal text, .decimal text hne hdecimal, hvalue⟩
  · intro h
    obtain ⟨literal, hlit, hvalue⟩ := h
    refine ⟨?_, hlit.no_plus⟩
    obtain ⟨hne, hdigits⟩ := hlit.digits_valid
    cases hlit with
    | decimal _ hne' hdecimal =>
      have hmark := readMark_decimal_eq_none hne' hdecimal (ends_nil carriesLiteral)
      rw [List.append_nil] at hmark
      rw [hmark]
      exact (Numeral.readWord_eq_ok_iff (by decide)).mpr ⟨text, Or.inl rfl, hne, hdigits, hvalue⟩
    | hex mark digits hx _ _ =>
      rw [readMark_eq_some_iff.mpr ⟨mark, hx, rfl⟩]
      exact (Numeral.readWord_eq_ok_iff (by decide)).mpr
        ⟨digits, Or.inl rfl, hne, hdigits, hvalue⟩

theorem readLimb_eq_ok_iff {text : String} {word : UInt32} :
    readLimb text = .ok word ↔ readLimbChars text.toList = .ok word := by
  rw [readLimb, mapError_eq_ok_iff]

/-- A plain text is one limb of a list exactly if it is a limb on its own and has no plus sign. -/
theorem read_single_iff {text : String} {word : UInt32} (hplain : Plain text.toList) :
    LimbList.read text = .ok [word] ↔ readLimb text = .ok word ∧ '+' ∉ text.toList := by
  rw [LimbList.read, readChars_single_iff hplain, readLimb_eq_ok_iff, readLimbChars_iff]

end Ident160
