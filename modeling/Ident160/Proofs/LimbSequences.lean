import Ident160.Proofs.LimbTokens

/-!
Bare lists: limbs set apart by separators. The reader takes a separator only together with a limb
behind it, so a list ends where neither a comma nor a character of a literal comes next, possibly
behind blanks. A list of the grammar in front of such a place is read as a whole.
-/

namespace Ident160.LimbList

theorem carriesLiteral_of_carriesSeparator {c : Char} (h : carriesSeparator c = true) :
    carriesLiteral c = false := by
  simp only [carriesSeparator, isBlank, Bool.or_eq_true, decide_eq_true_eq] at h
  rcases h with (((rfl | rfl) | rfl) | rfl) | rfl
  all_goals decide

theorem carriesSeparator_of_isDigit {c : Char} (h : c.isDigit = true) :
    carriesSeparator c = false := by
  by_contra hc
  have hlit := carriesLiteral_of_carriesSeparator (by simpa using hc)
  rw [carriesLiteral_of_isDigit h] at hlit
  contradiction

theorem isBlank_of_isDigit {c : Char} (h : c.isDigit = true) : isBlank c = false := by
  have hc := carriesSeparator_of_isDigit h
  rw [carriesSeparator, Bool.or_eq_false_iff] at hc
  exact hc.1

/-! ### The end of a list -/

/-- Behind its blanks the text has nothing that would carry a list on. -/
def Closes (rest : List Char) : Prop :=
  Ends (fun c => carriesLiteral c || c = ',') (skipBlanks rest)

theorem closes_of_blanks {rest : List Char} (h : Blanks rest) : Closes rest := by
  rw [Closes, skipBlanks_eq_nil h]
  exact ends_nil _

theorem closes_of_mark {blanks rest : List Char} {c : Char} (hblanks : Blanks blanks)
    (hc : c = '\x7d' ∨ c = ']') : Closes (blanks ++ c :: rest) := by
  have hend : Ends isBlank (c :: rest) ∧
      Ends (fun c => carriesLiteral c || c = ',') (c :: rest) := by
    rcases hc with rfl | rfl
    · exact ⟨ends_cons.mpr (by decide), ends_cons.mpr (by decide)⟩
    · exact ⟨ends_cons.mpr (by decide), ends_cons.mpr (by decide)⟩
  rw [Closes, skipBlanks_append hblanks, skipBlanks_of_ends hend.1]
  exact hend.2

theorem Closes.ends {rest : List Char} (h : Closes rest) : Ends carriesLiteral rest := by
  cases rest with
  | nil => exact ends_nil _
  | cons c rest =>
    rw [ends_cons]
    by_cases hc : isBlank c = true
    · exact carriesLiteral_of_carriesSeparator (by simp [carriesSeparator, hc])
    · have hself : skipBlanks (c :: rest) = c :: rest :=
        skipBlanks_of_ends (ends_cons.mpr (by simpa using hc))
      rw [Closes, hself, ends_cons, Bool.or_eq_false_iff] at h
      exact h.1

/-- Where a list closes, there may be a separator, but no literal behind it. -/
theorem readLiteral_skipBlanks_eq_none {rest : List Char} (h : Closes rest) :
    readLiteral (skipBlanks rest) = none := by
  apply readLiteral_eq_none
  exact h.mono fun c hc => by simp [carriesLiteral_of_isDigit hc]

/-! ### Elements -/

/-- A separator with a limb behind it carries the list on. -/
theorem readMore_of_literal {text behind rest : List Char} {literal : Literal}
    (hseparator : readSeparator text = some behind)
    (hliteral : readLiteral behind = some (literal, rest)) :
    readMore text = (literal :: (readMore rest).1, (readMore rest).2) := by
  rw [readMore]
  split
  · next hnone => simp [hseparator] at hnone
  · next found hfound =>
    obtain rfl := Option.some.inj (hseparator.symm.trans hfound)
    split
    · next hnone => simp [hliteral] at hnone
    · next literal' rest' hfound' =>
      obtain ⟨rfl, rfl⟩ := Prod.mk.inj (Option.some.inj (hliteral.symm.trans hfound'))
      rfl

/-- Reading stops where nothing carries the list on. -/
theorem readMore_of_closes {rest : List Char} (h : Closes rest) : readMore rest = ([], rest) := by
  have hliteral := readLiteral_skipBlanks_eq_none h
  have hseparator : ∀ behind, readSeparator rest = some behind → behind = skipBlanks rest := by
    intro behind hbehind
    unfold readSeparator at hbehind
    split at hbehind
    · next after hcomma =>
      rw [Closes, hcomma, ends_cons] at h
      simp at h
    · split at hbehind
      · exact (Option.some.inj hbehind).symm
      · simp at hbehind
  rw [readMore]
  split
  · rfl
  · next behind hbehind =>
    obtain rfl := hseparator behind hbehind
    split
    · rfl
    · next literal last hsome => simp [hliteral] at hsome

theorem readMore_sound (text : List Char) :
    ∃ taken, text = taken ++ (readMore text).2 ∧ Continues taken (readMore text).1 := by
  fun_induction readMore text with
  | case1 text _ => exact ⟨[], rfl, .done⟩
  | case2 text _ _ _ => exact ⟨[], rfl, .done⟩
  | case3 text behind hseparator literal rest hliteral _ literals last hmore ih =>
    obtain ⟨separator, rfl, hsep⟩ := readSeparator_sound hseparator
    obtain ⟨limb, rfl, hlit⟩ := readLiteral_sound hliteral
    obtain ⟨taken, hrest, hcontinues⟩ := ih
    rw [hmore] at hrest hcontinues
    refine ⟨separator ++ limb ++ taken, ?_, .more _ _ _ _ _ hsep hlit hcontinues⟩
    rw [hrest, List.append_assoc, List.append_assoc]

/-- A limb in front of further limbs ends where their first separator stands. -/
theorem Continues.nil_or_ends {text : List Char} {literals : List Literal}
    (h : Continues text literals) :
    text = [] ∧ literals = [] ∨ ∀ rest, Ends carriesLiteral (text ++ rest) := by
  cases h with
  | done => exact Or.inl ⟨rfl, rfl⟩
  | more separator limb behind literal literals hsep hlit hcontinues =>
    obtain ⟨c, tail, rfl, hc⟩ := hsep.head
    exact Or.inr fun rest => ends_cons.mpr (carriesLiteral_of_carriesSeparator hc)

theorem Continues.ends {text rest : List Char} {literals : List Literal}
    (h : Continues text literals) (hrest : Closes rest) : Ends carriesLiteral (text ++ rest) := by
  rcases h.nil_or_ends with ⟨rfl, -⟩ | hends
  · exact hrest.ends
  · exact hends rest

/-- All limbs of a list are taken where nothing behind them carries it on. -/
theorem readMore_append {text rest : List Char} {literals : List Literal}
    (h : Continues text literals) (hrest : Closes rest) :
    readMore (text ++ rest) = (literals, rest) := by
  induction h with
  | done => exact readMore_of_closes hrest
  | more separator limb behind literal literals hsep hlit hcontinues ih =>
    have hstart : Ends carriesSeparator (limb ++ (behind ++ rest)) := by
      obtain ⟨d, tail, rfl, hd⟩ := hlit.head
      exact ends_cons.mpr (carriesSeparator_of_isDigit hd)
    have hseparator := readSeparator_append hsep hstart
    have hliteral := readLiteral_append hlit (hcontinues.ends hrest)
    rw [List.append_assoc, List.append_assoc, readMore_of_literal hseparator hliteral, ih]

theorem readElements_sound (text : List Char) :
    ∃ taken, text = taken ++ (readElements text).2 ∧ IsElements taken (readElements text).1 := by
  unfold readElements
  split
  · exact ⟨[], rfl, .none⟩
  · next literal rest hliteral =>
    obtain ⟨limb, rfl, hlit⟩ := readLiteral_sound hliteral
    obtain ⟨taken, hrest, hcontinues⟩ := readMore_sound rest
    refine ⟨limb ++ taken, ?_, .some _ _ _ _ hlit hcontinues⟩
    rw [List.append_assoc, ← hrest]

theorem readElements_append {text rest : List Char} {literals : List Literal}
    (h : IsElements text literals) (hrest : Closes rest) (hnone : text = [] → Ends isBlank rest) :
    readElements (text ++ rest) = (literals, rest) := by
  cases h with
  | none =>
    have hliteral : readLiteral rest = none := by
      rw [← skipBlanks_of_ends (hnone rfl)]
      exact readLiteral_skipBlanks_eq_none hrest
    simp only [List.nil_append, readElements, hliteral]
  | some limb behind literal literals hlit hcontinues =>
    have hliteral := readLiteral_append hlit (hcontinues.ends hrest)
    have hmore := readMore_append hcontinues hrest
    simp only [List.append_assoc, readElements, hliteral, hmore]

theorem IsElements.read_alone {text : List Char} {literals : List Literal}
    (h : IsElements text literals) : readElements text = (literals, []) := by
  have hread := readElements_append h (closes_of_blanks blanks_nil) fun _ => ends_nil _
  rwa [List.append_nil] at hread

theorem IsElements.head {text : List Char} {literals : List Literal}
    (h : IsElements text literals) : text = [] ∨ ∃ d rest, text = d :: rest ∧ d.isDigit = true := by
  cases h with
  | none => exact Or.inl rfl
  | some limb behind literal literals hlit _ =>
    obtain ⟨d, tail, rfl, hd⟩ := hlit.head
    exact Or.inr ⟨d, tail ++ behind, rfl, hd⟩

/-- The blanks in front of an empty list and those behind it are one run, which the reader takes
at once. Either way it comes to the same end. -/
theorem readElements_skipBlanks {before text rest : List Char} {literals : List Literal}
    (hbefore : Blanks before) (h : IsElements text literals) (hrest : Closes rest) :
    ∃ last, readElements (skipBlanks (before ++ (text ++ rest))) = (literals, last) ∧
      skipBlanks last = skipBlanks rest := by
  rw [skipBlanks_append hbefore]
  rcases h.head with rfl | ⟨d, tail, rfl, hd⟩
  · have hclose : Closes (skipBlanks rest) := by
      rw [Closes, skipBlanks_skipBlanks]
      exact hrest
    exact ⟨skipBlanks rest, readElements_append h hclose fun _ => ends_skipBlanks rest,
      skipBlanks_skipBlanks rest⟩
  · have hdigit : Ends isBlank (d :: tail ++ rest) := ends_cons.mpr (isBlank_of_isDigit hd)
    rw [skipBlanks_of_ends hdigit]
    exact ⟨rest, readElements_append h hrest (by simp), rfl⟩

end Ident160.LimbList
