import Ident160.Proofs.LimbNotation

/-!
What the reader of limb lists takes from the front of a text that need not be a list. An
alternative that does not fit leaves no trace, and the bare list fits everywhere, at worst as the
empty one. `Takes` says in terms of the notation what is taken: a dump where one stands at the
front, else a list between marks where one stands there, else the longest bare list. The reader
and the relation agree, so the place where the reader stops is a matter of the notation.
-/

namespace Ident160.LimbList

/-- Some front of the text has the form. -/
def Begins {α : Type} (form : List Char → α → Prop) (text : List Char) : Prop :=
  ∃ front rest a, text = front ++ rest ∧ form front a

/-- The first alternative that fits takes the front and leaves the rest. -/
inductive Takes (front rest : List Char) (literals : List Literal) : Prop
  | dump (is_dump : IsDump front literals)
  | bracketed (no_dump : ¬ Begins IsDump (front ++ rest))
      (is_bracketed : IsBracketed front literals)
  | elements (no_dump : ¬ Begins IsDump (front ++ rest))
      (no_bracketed : ¬ Begins IsBracketed (front ++ rest))
      (is_elements : IsElements front literals)
      (longest : ∀ other behind limbs, front ++ rest = other ++ behind → IsElements other limbs →
        other.length ≤ front.length ∧ limbs.length ≤ literals.length)

/-! ### The longest bare list -/

/-- What is left is an end of the text. -/
theorem readMore_suffix (text : List Char) : (readMore text).2 <:+ text := by
  obtain ⟨taken, htext, -⟩ := readMore_sound text
  exact ⟨taken, htext.symm⟩

/-- The last limb of a list may be read longer than it is. All limbs before it end at a
separator. -/
theorem Continues.reaches_behind {limb rest : List Char} {literal : Literal}
    {literals : List Literal} (h : Continues rest literals) (hlit : IsLiteral limb literal)
    (behind : List Char)
    (hmore : (readMore (rest ++ behind)).2 <:+ behind ∧
      literals.length ≤ (readMore (rest ++ behind)).1.length) :
    ∃ found last, readLiteral (limb ++ (rest ++ behind)) = some (found, last) ∧
      (readMore last).2 <:+ behind ∧ literals.length ≤ (readMore last).1.length := by
  rcases h.nil_or_ends with ⟨rfl, rfl⟩ | hends
  · obtain ⟨found, last, hread, hlast⟩ := readLiteral_reaches hlit behind
    exact ⟨found, last, hread, (readMore_suffix last).trans hlast, Nat.zero_le _⟩
  · exact ⟨literal, rest ++ behind, readLiteral_append hlit (hends behind), hmore⟩

theorem readMore_reaches {text : List Char} {literals : List Literal} (h : Continues text literals)
    (behind : List Char) :
    (readMore (text ++ behind)).2 <:+ behind ∧
      literals.length ≤ (readMore (text ++ behind)).1.length := by
  induction h with
  | done => exact ⟨readMore_suffix behind, Nat.zero_le _⟩
  | more separator limb rest literal literals hsep hlit hcontinues ih =>
    have hstart : Ends carriesSeparator (limb ++ (rest ++ behind)) := by
      obtain ⟨d, tail, rfl, hd⟩ := hlit.head
      exact ends_cons.mpr (carriesSeparator_of_isDigit hd)
    obtain ⟨found, last, hread, hsuffix, hlength⟩ := hcontinues.reaches_behind hlit behind ih
    rw [List.append_assoc, List.append_assoc,
      readMore_of_literal (readSeparator_append hsep hstart) hread]
    exact ⟨hsuffix, Nat.succ_le_succ hlength⟩

/-- What stands behind a list may lengthen what is taken, but cannot shorten it. -/
theorem readElements_reaches {text : List Char} {literals : List Literal}
    (h : IsElements text literals) (behind : List Char) :
    (readElements (text ++ behind)).2 <:+ behind ∧
      literals.length ≤ (readElements (text ++ behind)).1.length := by
  cases h with
  | none =>
    obtain ⟨taken, htext, -⟩ := readElements_sound behind
    exact ⟨⟨taken, htext.symm⟩, Nat.zero_le _⟩
  | some limb rest literal literals hlit hcontinues =>
    obtain ⟨found, last, hread, hsuffix, hlength⟩ :=
      hcontinues.reaches_behind hlit behind (readMore_reaches hcontinues behind)
    rw [List.append_assoc, readElements, hread]
    exact ⟨hsuffix, Nat.succ_le_succ hlength⟩

/-- No text is a bare list in two ways. -/
theorem IsElements.unique {text : List Char} {first second : List Literal}
    (hfirst : IsElements text first) (hsecond : IsElements text second) : first = second := by
  have hread : (first, []) = (second, []) := hfirst.read_alone.symm.trans hsecond.read_alone
  exact (Prod.mk.inj hread).1

/-! ### The first alternative that fits -/

/-- A reader that takes what has the form, and takes it wherever it stands in front, fails where no
front has the form. -/
theorem eq_none_iff_not_begins {form : List Char → List Literal → Prop}
    {reader : List Char → Option (List Literal × List Char)}
    (hsound : ∀ {text last literals}, reader text = some (literals, last) →
      ∃ taken, text = taken ++ last ∧ form taken literals)
    (hcomplete : ∀ {text last literals}, form text literals →
      reader (text ++ last) = some (literals, last)) {text : List Char} :
    reader text = none ↔ ¬ Begins form text := by
  constructor
  · intro hnone hbegins
    obtain ⟨front, rest, literals, rfl, hform⟩ := hbegins
    rw [hcomplete hform] at hnone
    contradiction
  · intro hbegins
    by_contra hsome
    obtain ⟨⟨literals, rest⟩, hread⟩ := Option.ne_none_iff_exists'.mp hsome
    obtain ⟨front, htext, hform⟩ := hsound hread
    exact hbegins ⟨front, rest, literals, htext, hform⟩

theorem readDump_eq_none_iff {text : List Char} : readDump text = none ↔ ¬ Begins IsDump text :=
  eq_none_iff_not_begins readDump_sound readDump_append

theorem readBracketed_eq_none_iff {text : List Char} :
    readBracketed text = none ↔ ¬ Begins IsBracketed text :=
  eq_none_iff_not_begins readBracketed_sound readBracketed_append

theorem takes_of_readElements {text : List Char} (hdump : ¬ Begins IsDump text)
    (hbracketed : ¬ Begins IsBracketed text) :
    ∃ front, text = front ++ (readElements text).2 ∧
      Takes front (readElements text).2 (readElements text).1 := by
  obtain ⟨front, htext, helements⟩ := readElements_sound text
  refine ⟨front, htext, .elements (htext ▸ hdump) (htext ▸ hbracketed) helements ?_⟩
  intro other behind limbs hother hlimbs
  rw [← htext] at hother
  subst hother
  obtain ⟨hsuffix, hlength⟩ := readElements_reaches hlimbs behind
  have hsplit := congrArg List.length htext
  have hrest := hsuffix.length_le
  rw [List.length_append, List.length_append] at hsplit
  exact ⟨by omega, hlength⟩

/-- What the reader takes is what the first alternative that fits takes. -/
theorem takes_of_readShape {text rest : List Char} {literals : List Literal}
    (h : readShape text = (literals, rest)) :
    ∃ front, text = front ++ rest ∧ Takes front rest literals := by
  unfold readShape at h
  split at h
  · next result hdump =>
    rw [h] at hdump
    obtain ⟨front, htext, hshape⟩ := readDump_sound hdump
    exact ⟨front, htext, .dump hshape⟩
  · next hdump =>
    rw [readDump_eq_none_iff] at hdump
    split at h
    · next result hbracketed =>
      rw [h] at hbracketed
      obtain ⟨front, htext, hshape⟩ := readBracketed_sound hbracketed
      exact ⟨front, htext, .bracketed (htext ▸ hdump) hshape⟩
    · next hbracketed =>
      have htakes := takes_of_readElements hdump (readBracketed_eq_none_iff.mp hbracketed)
      rwa [h] at htakes

/-- What the first alternative takes is what the reader takes. -/
theorem readShape_of_takes {front rest : List Char} {literals : List Literal}
    (h : Takes front rest literals) : readShape (front ++ rest) = (literals, rest) := by
  cases h with
  | dump hdump => rw [readShape, readDump_append hdump]
  | bracketed hdump hbracketed =>
    rw [readShape, readDump_eq_none_iff.mpr hdump, readBracketed_append hbracketed]
  | elements hdump hbracketed helements hlongest =>
    rw [readShape, readDump_eq_none_iff.mpr hdump, readBracketed_eq_none_iff.mpr hbracketed]
    obtain ⟨taken, htaken, hlimbs⟩ := readElements_sound (front ++ rest)
    have hlength := (hlongest taken _ _ htaken hlimbs).1
    -- The reader comes to the end of the front, and no list ends behind it.
    have hend : (readElements (front ++ rest)).2 = rest := by
      have hsuffix := (readElements_reaches helements rest).1
      have hsplit := congrArg List.length htaken
      rw [List.length_append, List.length_append] at hsplit
      exact hsuffix.eq_of_length_le (by omega)
    rw [hend] at htaken
    rw [← List.append_cancel_right htaken] at hlimbs
    exact Prod.ext (hlimbs.unique helements) hend

/-- The reader and the notation agree on what is taken from the front of a text. -/
theorem readShape_eq_iff {text rest : List Char} {literals : List Literal} :
    readShape text = (literals, rest) ↔
      ∃ front, text = front ++ rest ∧ Takes front rest literals := by
  constructor
  · exact takes_of_readShape
  · intro h
    obtain ⟨front, rfl, htakes⟩ := h
    exact readShape_of_takes htakes

end Ident160.LimbList
