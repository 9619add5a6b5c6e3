import Ident160.LimbList.Combinators
import Ident160.Proofs.Results

/-!
The small readers that limb lists are read with follow plain ones, which have a result or none: they
take what those take, and refuse what those do not take. So none of them asks for more of a text,
and a limb list is read in the end as the plain readers read it.
-/

namespace Ident160.LimbList

namespace Parser

variable {α β γ : Type}

/-- The parser takes what the reader takes, and refuses every other text. -/
structure Follows (p : Parser α) (reader : List Char → Option (α × List Char)) : Prop where
  taken : ∀ {text result}, reader text = some result → p text = .ok result
  refused : ∀ {text}, reader text = none → ∃ rest, p text = .error (.refused rest)

variable {p first : Parser α} {q second : Parser β} {last : Parser γ}
  {readP readQ : List Char → Option (α × List Char)} {readNext : List Char → Option (β × List Char)}
  {readLast : List Char → Option (γ × List Char)}

theorem follows_complete (reader : List Char → Option (α × List Char)) :
    Follows (complete reader) reader where
  taken h := by simp only [complete, h]
  refused {text} h := ⟨text, by simp only [complete, h]⟩

theorem Follows.congr (h : Follows p readP) (hsame : ∀ text, readP text = readQ text) :
    Follows p readQ := by
  rwa [← funext hsame]

theorem Follows.map (h : Follows p readP) (f : α → β) :
    Follows (map f p) fun text => (readP text).map fun (a, rest) => (f a, rest) where
  taken {text _} hread := by
    obtain ⟨⟨a, rest⟩, htaken, rfl⟩ := Option.map_eq_some_iff.mp hread
    rw [Parser.map, h.taken htaken]
    rfl
  refused {text} hread := by
    obtain ⟨rest, hrefused⟩ := h.refused (Option.map_eq_none_iff.mp hread)
    exact ⟨rest, by rw [Parser.map, hrefused]; rfl⟩

theorem Follows.preceded (hfirst : Follows first readP) (hsecond : Follows second readNext) :
    Follows (preceded first second) fun text =>
      (readP text).bind fun (_, rest) => readNext rest where
  taken {text _} hread := by
    obtain ⟨⟨a, rest⟩, htaken, hnext⟩ := Option.bind_eq_some_iff.mp hread
    rw [Parser.preceded, hfirst.taken htaken]
    exact hsecond.taken hnext
  refused {text} hread := by
    cases hstart : readP text with
    | none =>
      obtain ⟨rest, hrefused⟩ := hfirst.refused hstart
      exact ⟨rest, by rw [Parser.preceded, hrefused]; rfl⟩
    | some result =>
      rw [hstart, Option.bind_some] at hread
      obtain ⟨rest, hrefused⟩ := hsecond.refused hread
      rw [Parser.preceded, hfirst.taken hstart]
      exact ⟨rest, hrefused⟩

theorem Follows.terminated (hfirst : Follows first readP) (hsecond : Follows second readNext) :
    Follows (terminated first second) fun text =>
      (readP text).bind fun (a, rest) => (readNext rest).map fun (_, behind) => (a, behind) where
  taken {text _} hread := by
    obtain ⟨⟨a, rest⟩, htaken, hnext⟩ := Option.bind_eq_some_iff.mp hread
    obtain ⟨⟨b, behind⟩, hbehind, rfl⟩ := Option.map_eq_some_iff.mp hnext
    have hclosed := hsecond.taken hbehind
    simp only [Parser.terminated, hfirst.taken htaken, ok_bind, hclosed]
    rfl
  refused {text} hread := by
    cases hstart : readP text with
    | none =>
      obtain ⟨rest, hrefused⟩ := hfirst.refused hstart
      exact ⟨rest, by rw [Parser.terminated, hrefused]; rfl⟩
    | some result =>
      rw [hstart, Option.bind_some] at hread
      obtain ⟨rest, hrefused⟩ := hsecond.refused (Option.map_eq_none_iff.mp hread)
      refine ⟨rest, ?_⟩
      simp only [Parser.terminated, hfirst.taken hstart, ok_bind, hrefused]
      rfl

/-- The second alternative is tried on the same text. -/
theorem Follows.alt {second : Parser α} (hfirst : Follows first readP)
    (hsecond : Follows second readQ) :
    Follows (alt first second) fun text => (readP text).or (readQ text) where
  taken {text _} hread := by
    cases hstart : readP text with
    | none =>
      obtain ⟨_, hrefused⟩ := hfirst.refused hstart
      rw [hstart, Option.none_or] at hread
      rw [Parser.alt, hrefused]
      exact hsecond.taken hread
    | some result =>
      rw [hstart, Option.some_or] at hread
      rw [Parser.alt, hfirst.taken hstart, ← Option.some.inj hread]
  refused {text} hread := by
    obtain ⟨hstart, hother⟩ := Option.or_eq_none_iff.mp hread
    obtain ⟨_, hrefused⟩ := hfirst.refused hstart
    rw [Parser.alt, hrefused]
    exact hsecond.refused hother

end Parser

open Ident160.LimbList.Parser

/-! ### Limb lists -/

theorem follows_passing (reader : List Char → Option (List Char)) :
    Follows (passing reader) fun text => (reader text).map fun rest => ((), rest) :=
  follows_complete _

theorem follows_blanks : Follows blanks fun text => some ((), skipBlanks text) :=
  follows_passing fun text => some (skipBlanks text)

theorem follows_literal : Follows literal readLiteral := by
  have hhex := ((follows_passing readMark).preceded
    (follows_complete (readRun Digit.isHex))).map Literal.hex
  refine (hhex.alt ((follows_complete (readRun Char.isDigit)).map Literal.decimal)).congr ?_
  intro text
  rw [readLiteral, readHex]
  cases hmark : readMark text with
  | none => simp
  | some digits => cases hrun : readRun Digit.isHex digits <;> simp [hrun]

theorem readExactly_singleton (c d : Char) (text : List Char) :
    readExactly [c] (d :: text) = if c = d then some text else none := rfl

/-- A run of blanks is what stands in front of the text behind its blanks, if anything does. -/
theorem readRun_blank (text : List Char) :
    (readRun isBlank text).map Prod.snd =
      if (skipBlanks text).length < text.length then some (skipBlanks text) else none := by
  have hlength := congrArg List.length (List.takeWhile_append_dropWhile (p := isBlank) (l := text))
  rw [List.length_append] at hlength
  rw [skipBlanks, readRun]
  split
  · next hnone =>
    rw [hnone, List.length_nil] at hlength
    rw [if_neg (by omega), Option.map_none]
  · next c cs hrun =>
    rw [hrun, List.length_cons] at hlength
    rw [if_pos (by omega), Option.map_some]

theorem follows_separator :
    Follows separator fun text => (readSeparator text).map fun rest => ((), rest) := by
  have hcomma := follows_blanks.preceded
    ((follows_passing (readExactly [','])).terminated follows_blanks)
  refine (hcomma.alt (follows_passing _)).congr fun text => ?_
  rw [readSeparator, readRun_blank]
  cases hskip : skipBlanks text with
  | nil => rfl
  | cons c rest =>
    by_cases hc : c = ','
    · subst hc
      rfl
    · simp [readExactly_singleton, hc, Ne.symm hc]

/-- The loop over the limbs of a list goes on as long as the plain one. -/
theorem more_eq (text : List Char) : more separator literal text = .ok (readMore text) := by
  have hround : Follows (preceded separator literal) fun text =>
      (readSeparator text).bind readLiteral :=
    (follows_separator.preceded follows_literal).congr fun _ => Option.bind_map
  fun_induction readMore text with
  | case1 text hseparator =>
    have hnone : (readSeparator text).bind readLiteral = none := by
      rw [hseparator, Option.bind_none]
    obtain ⟨rest, hrefused⟩ := hround.refused hnone
    rw [more, hrefused]
  | case2 text behind hseparator hliteral =>
    have hnone : (readSeparator text).bind readLiteral = none := by
      rw [hseparator, Option.bind_some, hliteral]
    obtain ⟨rest, hrefused⟩ := hround.refused hnone
    rw [more, hrefused]
  | case3 text behind hseparator limb rest hliteral hshorter literals last hmore ih =>
    have hsome : (readSeparator text).bind readLiteral = some (limb, rest) := by
      rw [hseparator, Option.bind_some, hliteral]
    rw [more, hround.taken hsome]
    simp only [hshorter, dif_pos, ih, hmore]
    rfl

/-- The bare list takes something of every text, maybe nothing. -/
theorem follows_elements : Follows elements fun text => some (readElements text) where
  taken {text _} hread := by
    obtain rfl := Option.some.inj hread
    rw [elements, separatedList, readElements]
    cases hliteral : readLiteral text with
    | none =>
      obtain ⟨rest, hrefused⟩ := follows_literal.refused hliteral
      rw [hrefused]
    | some result =>
      rw [follows_literal.taken hliteral]
      simp only [more_eq]
      rfl
  refused hread := nomatch hread

theorem follows_between (opening closing : Char) :
    Follows (between opening closing) (readBetween opening closing) := by
  have hopening := (follows_passing (readExactly [opening])).preceded follows_blanks
  have hclosing := follows_blanks.preceded (follows_passing (readExactly [closing]))
  refine (hopening.preceded (follows_elements.terminated hclosing)).congr fun text => ?_
  cases text with
  | nil => rfl
  | cons c text =>
    by_cases hc : c = opening
    · subst hc
      simp only [readBetween, readExactly_singleton, if_true, Option.map_some, Option.bind_some]
      cases skipBlanks (readElements (skipBlanks text)).2 with
      | nil => rfl
      | cons d last =>
        rw [readExactly_singleton]
        by_cases hd : d = closing
        · simp [hd]
        · simp [hd, Ne.symm hd]
    · simp [readBetween, readExactly_singleton, hc, Ne.symm hc]

theorem follows_bracketed : Follows bracketed readBracketed := by
  refine ((follows_between '\x7b' '\x7d').alt (follows_between '[' ']')).congr fun text => ?_
  rw [readBracketed]
  cases readBetween '\x7b' '\x7d' text <;> rfl

theorem follows_dump : Follows dump readDump := by
  have hname := (follows_passing (readExactly memberName)).preceded (follows_blanks.preceded
    ((follows_passing (readExactly ['='])).preceded follows_blanks))
  have hopening : Follows dumpOpening fun text =>
      (readDumpOpening text).map fun rest => ((), rest) := by
    refine ((follows_passing (readExactly ['\x7b'])).preceded
      (follows_blanks.preceded hname)).congr fun text => ?_
    simp [readDumpOpening, Option.bind_map, Option.map_bind, Function.comp_def]
  have hclosing := follows_blanks.preceded (follows_passing (readExactly ['\x7d']))
  refine (hopening.preceded (follows_bracketed.terminated hclosing)).congr fun text => ?_
  simp [readDump, Option.map_eq_bind, Option.bind_assoc, Function.comp_def]

/-- The first alternative that fits. -/
theorem follows_shape :
    Follows (alt dump (alt bracketed elements)) fun text => some (readShape text) := by
  refine (follows_dump.alt (follows_bracketed.alt follows_elements)).congr fun text => ?_
  rw [readShape]
  cases readDump text with
  | some result => rfl
  | none => cases readBracketed text <;> rfl

/-- Limb lists are read as by the plain readers, and their words are taken then. -/
theorem readChars_eq (text : List Char) :
    readChars text = readLiterals text >>= literalWords := by
  have hshape : delimited blanks (alt dump (alt bracketed elements)) blanks text =
      .ok ((readShape (skipBlanks text)).1, skipBlanks (readShape (skipBlanks text)).2) :=
    (follows_blanks.preceded (follows_shape.terminated follows_blanks)).taken rfl
  simp only [readChars, limbList, allConsuming, hshape, ok_bind, readLiterals]
  cases skipBlanks (readShape (skipBlanks text)).2 <;> rfl

end Ident160.LimbList
