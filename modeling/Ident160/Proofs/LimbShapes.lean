import Ident160.Proofs.LimbSequences

/-!
The shapes of a limb list: the dump of an array, a list in braces or brackets, and a bare list.
What the reader takes is one of them, and each of them is taken whole. The reader never goes back
behind an alternative that fits; it need not, since behind the opening brace a dump goes on with a
name and a list with a digit or the closing brace.
-/

namespace Ident160.LimbList

/-! ### Brackets and dumps -/

theorem readBetween_sound {opening closing : Char} {text last : List Char}
    {literals : List Literal} (h : readBetween opening closing text = some (literals, last)) :
    ∃ before inner after, Blanks before ∧ IsElements inner literals ∧ Blanks after ∧
      text = opening :: before ++ inner ++ after ++ [closing] ++ last := by
  cases text with
  | nil => simp [readBetween] at h
  | cons c text =>
    obtain ⟨before, hbefore, htext⟩ := exists_blanks text
    obtain ⟨inner, hinner, helements⟩ := readElements_sound (skipBlanks text)
    obtain ⟨after, hafter, hrest⟩ := exists_blanks (readElements (skipBlanks text)).2
    by_cases hopening : c = opening
    · subst hopening
      simp only [readBetween, if_true] at h
      split at h
      · simp at h
      · next d last' hskip =>
        split at h
        · next hclosing =>
          subst hclosing
          obtain ⟨rfl, rfl⟩ := Prod.mk.inj (Option.some.inj h)
          refine ⟨before, inner, after, hbefore, helements, hafter, ?_⟩
          rw [hskip] at hrest
          rw [htext, hinner, hrest]
          simp only [List.append_assoc, List.cons_append, List.nil_append]
        · simp at h
    · simp [readBetween, hopening] at h

theorem readBetween_append {opening closing : Char} {before inner after last : List Char}
    {literals : List Literal} (hbefore : Blanks before) (hinner : IsElements inner literals)
    (hafter : Blanks after) (hclosing : closing = '\x7d' ∨ closing = ']') :
    readBetween opening closing (opening :: before ++ inner ++ after ++ [closing] ++ last) =
      some (literals, last) := by
  have hcloses : Closes (after ++ closing :: last) := closes_of_mark hafter hclosing
  have hblank : Ends isBlank (closing :: last) := by
    rcases hclosing with rfl | rfl
    · exact ends_cons.mpr (by decide)
    · exact ends_cons.mpr (by decide)
  obtain ⟨rest, hread, hskip⟩ := readElements_skipBlanks hbefore hinner hcloses
  rw [skipBlanks_append hafter, skipBlanks_of_ends hblank] at hskip
  have htext : opening :: before ++ inner ++ after ++ [closing] ++ last =
      opening :: (before ++ (inner ++ (after ++ closing :: last))) := by
    simp only [List.append_assoc, List.cons_append, List.nil_append]
  rw [htext]
  simp only [readBetween, if_true, hread, hskip]

theorem readBracketed_sound {text last : List Char} {literals : List Literal}
    (h : readBracketed text = some (literals, last)) :
    ∃ taken, text = taken ++ last ∧ IsBracketed taken literals := by
  unfold readBracketed at h
  split at h
  · next result hbraces =>
    rw [Option.some.inj h] at hbraces
    obtain ⟨before, inner, after, hbefore, hinner, hafter, rfl⟩ := readBetween_sound hbraces
    exact ⟨_, rfl, .braces before inner after literals hbefore hinner hafter⟩
  · obtain ⟨before, inner, after, hbefore, hinner, hafter, rfl⟩ := readBetween_sound h
    exact ⟨_, rfl, .brackets before inner after literals hbefore hinner hafter⟩

theorem readBracketed_append {text last : List Char} {literals : List Literal}
    (h : IsBracketed text literals) : readBracketed (text ++ last) = some (literals, last) := by
  cases h with
  | braces before inner after literals hbefore hinner hafter =>
    have hread :
        readBetween '\x7b' '\x7d' ('\x7b' :: before ++ inner ++ after ++ ['\x7d'] ++ last) =
          some (literals, last) := readBetween_append hbefore hinner hafter (Or.inl rfl)
    simp only [readBracketed, hread]
  | brackets before inner after literals hbefore hinner hafter =>
    have hread : readBetween '[' ']' ('[' :: before ++ inner ++ after ++ [']'] ++ last) =
        some (literals, last) := readBetween_append hbefore hinner hafter (Or.inr rfl)
    have hbraces : readBetween '\x7b' '\x7d' ('[' :: before ++ inner ++ after ++ [']'] ++ last) =
        none := rfl
    simp only [readBracketed, hbraces, hread]

theorem readExactly_eq_some_iff {expected text rest : List Char} :
    readExactly expected text = some rest ↔ text = expected ++ rest := by
  induction expected generalizing text with
  | nil => simp [readExactly]
  | cons c expected ih =>
    cases text with
    | nil => simp [readExactly]
    | cons d text =>
      by_cases hcd : c = d
      · subst hcd
        simp [readExactly, ih]
      · simp [readExactly, hcd, Ne.symm hcd]

theorem readDumpOpening_sound {text rest : List Char} (h : readDumpOpening text = some rest) :
    ∃ b₁ b₂ b₃, Blanks b₁ ∧ Blanks b₂ ∧ Blanks b₃ ∧
      text = '\x7b' :: b₁ ++ memberName ++ b₂ ++ '=' :: b₃ ++ rest := by
  unfold readDumpOpening at h
  obtain ⟨t₁, hbrace, h⟩ := Option.bind_eq_some_iff.mp h
  obtain ⟨t₂, hname, h⟩ := Option.bind_eq_some_iff.mp h
  obtain ⟨t₃, hequals, h⟩ := Option.bind_eq_some_iff.mp h
  obtain ⟨b₁, hb₁, ht₁⟩ := exists_blanks t₁
  obtain ⟨b₂, hb₂, ht₂⟩ := exists_blanks t₂
  obtain ⟨b₃, hb₃, ht₃⟩ := exists_blanks t₃
  rw [readExactly_eq_some_iff] at hbrace hname hequals
  refine ⟨b₁, b₂, b₃, hb₁, hb₂, hb₃, ?_⟩
  rw [← Option.some.inj h, hbrace, ht₁, hname, ht₂, hequals]
  simp only [List.append_assoc, List.cons_append, List.nil_append]
  rw [← ht₃]

theorem skipBlanks_memberName (rest : List Char) :
    skipBlanks (memberName ++ rest) = memberName ++ rest :=
  skipBlanks_of_ends (ends_cons.mpr (by decide))

theorem readDumpOpening_append {b₁ b₂ b₃ rest : List Char} (hb₁ : Blanks b₁) (hb₂ : Blanks b₂)
    (hb₃ : Blanks b₃) (hrest : Ends isBlank rest) :
    readDumpOpening ('\x7b' :: b₁ ++ memberName ++ b₂ ++ '=' :: b₃ ++ rest) = some rest := by
  have hequals : Ends isBlank ('=' :: (b₃ ++ rest)) := ends_cons.mpr (by decide)
  have hafter₁ : skipBlanks (b₁ ++ (memberName ++ (b₂ ++ '=' :: (b₃ ++ rest)))) =
      memberName ++ (b₂ ++ '=' :: (b₃ ++ rest)) := by
    rw [skipBlanks_append hb₁, skipBlanks_memberName]
  have hafter₂ : skipBlanks (b₂ ++ '=' :: (b₃ ++ rest)) = ['='] ++ (b₃ ++ rest) := by
    rw [skipBlanks_append hb₂, skipBlanks_of_ends hequals]
    rfl
  have hafter₃ : skipBlanks (b₃ ++ rest) = rest := by
    rw [skipBlanks_append hb₃, skipBlanks_of_ends hrest]
  have htext : '\x7b' :: b₁ ++ memberName ++ b₂ ++ '=' :: b₃ ++ rest =
      ['\x7b'] ++ (b₁ ++ (memberName ++ (b₂ ++ '=' :: (b₃ ++ rest)))) := by
    simp only [List.append_assoc, List.cons_append, List.nil_append]
  have htake : ∀ expected behind, readExactly expected (expected ++ behind) = some behind :=
    fun expected behind => readExactly_eq_some_iff.mpr rfl
  rw [htext, readDumpOpening]
  simp only [htake, Option.bind_eq_bind, Option.bind_some, hafter₁, hafter₂, hafter₃]
  rfl

theorem readDump_sound {text last : List Char} {literals : List Literal}
    (h : readDump text = some (literals, last)) :
    ∃ taken, text = taken ++ last ∧ IsDump taken literals := by
  unfold readDump at h
  obtain ⟨t₁, hopening, h⟩ := Option.bind_eq_some_iff.mp h
  obtain ⟨⟨found, t₂⟩, hbracketed, h⟩ := Option.bind_eq_some_iff.mp h
  obtain ⟨t₃, hclosing, h⟩ := Option.bind_eq_some_iff.mp h
  obtain ⟨rfl, rfl⟩ := Prod.mk.inj (Option.some.inj h)
  obtain ⟨b₁, b₂, b₃, hb₁, hb₂, hb₃, rfl⟩ := readDumpOpening_sound hopening
  obtain ⟨inner, rfl, hinner⟩ := readBracketed_sound hbracketed
  obtain ⟨b₄, hb₄, ht₂⟩ := exists_blanks t₂
  rw [readExactly_eq_some_iff] at hclosing
  refine ⟨_, ?_, .dump b₁ b₂ b₃ inner b₄ found hb₁ hb₂ hb₃ hinner hb₄⟩
  rw [ht₂, hclosing]
  simp only [List.append_assoc]

theorem IsBracketed.head {text : List Char} {literals : List Literal}
    (h : IsBracketed text literals) : ∃ c tail, text = c :: tail ∧ (c = '\x7b' ∨ c = '[') := by
  cases h with
  | braces => exact ⟨'\x7b', _, rfl, Or.inl rfl⟩
  | brackets => exact ⟨'[', _, rfl, Or.inr rfl⟩

theorem IsBracketed.ends {text : List Char} {literals : List Literal}
    (h : IsBracketed text literals) (rest : List Char) : Ends isBlank (text ++ rest) := by
  obtain ⟨c, tail, rfl, rfl | rfl⟩ := h.head
  · exact ends_cons.mpr (by decide)
  · exact ends_cons.mpr (by decide)

/-- A dump is taken whatever stands behind it. -/
theorem readDump_append {text last : List Char} {literals : List Literal}
    (h : IsDump text literals) : readDump (text ++ last) = some (literals, last) := by
  cases h with
  | dump b₁ b₂ b₃ inner b₄ literals hb₁ hb₂ hb₃ hinner hb₄ =>
    have hopening := readDumpOpening_append hb₁ hb₂ hb₃ (hinner.ends (b₄ ++ '\x7d' :: last))
    have hbracketed : readBracketed (inner ++ (b₄ ++ '\x7d' :: last)) =
        some (literals, b₄ ++ '\x7d' :: last) := readBracketed_append hinner
    have hclosing : skipBlanks (b₄ ++ '\x7d' :: last) = ['\x7d'] ++ last := by
      rw [skipBlanks_append hb₄]
      exact skipBlanks_of_ends (ends_cons.mpr (by decide))
    have htext : '\x7b' :: b₁ ++ memberName ++ b₂ ++ '=' :: b₃ ++ inner ++ b₄ ++ ['\x7d'] ++ last =
        '\x7b' :: b₁ ++ memberName ++ b₂ ++ '=' :: b₃ ++ (inner ++ (b₄ ++ '\x7d' :: last)) := by
      simp only [List.append_assoc, List.cons_append, List.nil_append]
    rw [htext, readDump, hopening]
    simp only [Option.bind_eq_bind, Option.bind_some, hbracketed, hclosing,
      readExactly_eq_some_iff.mpr rfl]
    rfl

/-! ### Shapes -/

/-- A brace that no member name follows opens no dump. -/
theorem readDump_eq_none {text : List Char}
    (h : ∀ rest, text = '\x7b' :: rest → Ends (fun c => c = '_') (skipBlanks rest)) :
    readDump text = none := by
  by_contra hsome
  obtain ⟨⟨literals, last⟩, hread⟩ := Option.ne_none_iff_exists'.mp hsome
  obtain ⟨taken, rfl, hdump⟩ := readDump_sound hread
  cases hdump with
  | dump b₁ b₂ b₃ inner b₄ literals hb₁ hb₂ hb₃ hinner hb₄ =>
    have hname := h (b₁ ++ memberName ++ b₂ ++ '=' :: b₃ ++ inner ++ b₄ ++ ['\x7d'] ++ last) rfl
    simp only [List.append_assoc] at hname
    rw [skipBlanks_append hb₁, skipBlanks_memberName] at hname
    exact absurd (ends_cons.mp hname) (by decide)

theorem readBracketed_eq_none {text : List Char}
    (h : Ends (fun c => c = '\x7b' || c = '[') text) : readBracketed text = none := by
  by_contra hsome
  obtain ⟨⟨literals, last⟩, hread⟩ := Option.ne_none_iff_exists'.mp hsome
  obtain ⟨taken, rfl, hbracketed⟩ := readBracketed_sound hread
  obtain ⟨c, tail, rfl, rfl | rfl⟩ := hbracketed.head
  · exact absurd (ends_cons.mp h) (by decide)
  · exact absurd (ends_cons.mp h) (by decide)

/-- Behind the opening brace of a list comes a digit or the closing brace, never a member. -/
theorem readDump_bracketed {text : List Char} {literals : List Literal}
    (h : IsBracketed text literals) (last : List Char) : readDump (text ++ last) = none := by
  apply readDump_eq_none
  intro rest heq
  cases h with
  | braces before inner after literals hbefore hinner hafter =>
    simp only [List.append_assoc, List.cons_append, List.nil_append] at heq
    rw [← (List.cons.inj heq).2, skipBlanks_append hbefore]
    rcases hinner.head with rfl | ⟨d, tail, rfl, hd⟩
    · rw [List.nil_append, skipBlanks_append hafter,
        skipBlanks_of_ends (ends_cons.mpr (by decide))]
      exact ends_cons.mpr (by decide)
    · rw [List.cons_append, skipBlanks_of_ends (ends_cons.mpr (isBlank_of_isDigit hd))]
      refine ends_cons.mpr (decide_eq_false ?_)
      rintro rfl
      exact absurd hd (by decide)
  | brackets => exact absurd (List.cons.inj heq).1 (by decide)

theorem IsDump.ends {text : List Char} {literals : List Literal} (h : IsDump text literals)
    (rest : List Char) : Ends isBlank (text ++ rest) := by
  cases h with
  | dump => exact ends_cons.mpr (by decide)

/-- Behind its leading blanks a bare list has a digit, or nothing at all. -/
theorem ends_bare {inClass : Char → Bool} {text after : List Char} {literals : List Literal}
    (h : IsElements text literals) (hafter : Blanks after)
    (hdigit : ∀ c, c.isDigit = true → inClass c = false) :
    Ends inClass (skipBlanks (text ++ after)) := by
  rcases h.head with rfl | ⟨d, tail, rfl, hd⟩
  · rw [List.nil_append, skipBlanks_eq_nil hafter]
    exact ends_nil _
  · rw [List.cons_append, skipBlanks_of_ends (ends_cons.mpr (isBlank_of_isDigit hd))]
    exact ends_cons.mpr (hdigit d hd)

theorem isOpening_of_isDigit {c : Char} (h : c.isDigit = true) :
    (decide (c = '\x7b') || decide (c = '[')) = false := by
  rw [Bool.or_eq_false_iff, decide_eq_false_iff_not, decide_eq_false_iff_not]
  constructor
  · intro hc
    exact absurd (hc ▸ h) (by decide)
  · intro hc
    exact absurd (hc ▸ h) (by decide)

theorem readBracketed_bare {text after : List Char} {literals : List Literal}
    (h : IsElements text literals) (hafter : Blanks after) :
    readBracketed (skipBlanks (text ++ after)) = none :=
  readBracketed_eq_none (ends_bare h hafter fun _ => isOpening_of_isDigit)

theorem readDump_bare {text after : List Char} {literals : List Literal}
    (h : IsElements text literals) (hafter : Blanks after) :
    readDump (skipBlanks (text ++ after)) = none := by
  apply readDump_eq_none
  intro rest heq
  have hbrace : Ends (fun c => c = '\x7b' || c = '[') (skipBlanks (text ++ after)) :=
    ends_bare h hafter fun _ => isOpening_of_isDigit
  rw [heq] at hbrace
  exact absurd (ends_cons.mp hbrace) (by decide)

/-- Whatever is taken has one of the three forms. -/
theorem readShape_sound (text : List Char) :
    ∃ taken, text = taken ++ (readShape text).2 ∧
      (IsDump taken (readShape text).1 ∨ IsBracketed taken (readShape text).1 ∨
        IsElements taken (readShape text).1) := by
  unfold readShape
  split
  · next result hdump =>
    obtain ⟨taken, htext, hshape⟩ := readDump_sound hdump
    exact ⟨taken, htext, Or.inl hshape⟩
  · split
    · next result hbracketed =>
      obtain ⟨taken, htext, hshape⟩ := readBracketed_sound hbracketed
      exact ⟨taken, htext, Or.inr (Or.inl hshape)⟩
    · obtain ⟨taken, htext, hshape⟩ := readElements_sound text
      exact ⟨taken, htext, Or.inr (Or.inr hshape)⟩

end Ident160.LimbList
