import Ident160.Proofs.LimbParsers
import Ident160.Proofs.LimbShapes

/-!
How far the readers of limb lists move. Each leaves a rest of its text, and a literal and a
separator take at least one character. So the loop over the limbs of a list ends by itself: with a
bound on its rounds and a guard against rounds that take nothing it comes to the same limbs, and
meets neither. A separator with no limb behind it is given back, so what a list takes ends with a
limb, and read alone it is the same list.
-/

namespace Ident160.LimbList

/-- A reader has taken at least one character of the text and left the rest. -/
def Advances (text rest : List Char) : Prop := ∃ taken, taken ≠ [] ∧ text = taken ++ rest

/-- A reader that leaves less has taken something. -/
theorem advances_of_shorter {text taken rest : List Char} (htext : text = taken ++ rest)
    (hlength : rest.length < text.length) : Advances text rest := by
  refine ⟨taken, ?_, htext⟩
  rintro rfl
  rw [htext] at hlength
  exact Nat.lt_irrefl _ hlength

theorem readLiteral_advances {text rest : List Char} {literal : Literal}
    (h : readLiteral text = some (literal, rest)) : Advances text rest := by
  obtain ⟨taken, htext, -⟩ := readLiteral_sound h
  exact advances_of_shorter htext (readLiteral_length h)

theorem readSeparator_advances {text rest : List Char} (h : readSeparator text = some rest) :
    Advances text rest := by
  obtain ⟨taken, htext, -⟩ := readSeparator_sound h
  exact advances_of_shorter htext (readSeparator_length h)

theorem readBracketed_advances {text rest : List Char} {literals : List Literal}
    (h : readBracketed text = some (literals, rest)) : Advances text rest := by
  obtain ⟨taken, htext, hbracketed⟩ := readBracketed_sound h
  obtain ⟨c, tail, rfl, -⟩ := hbracketed.head
  exact ⟨c :: tail, List.cons_ne_nil c tail, htext⟩

theorem readDump_advances {text rest : List Char} {literals : List Literal}
    (h : readDump text = some (literals, rest)) : Advances text rest := by
  obtain ⟨taken, htext, hdump⟩ := readDump_sound h
  cases hdump with
  | dump => exact ⟨_, List.cons_ne_nil _ _, htext⟩

/-! ### Guarded repetition -/

/-- What breaks off a repetition that does not end by itself. -/
inductive Stall where
  /-- All rounds that were granted are used up. -/
  | outOfRounds
  /-- A reader took nothing, and would do so for ever. -/
  | idle
deriving DecidableEq

section

variable {α : Type} (separator : List Char → Option (List Char))
  (element : List Char → Option (α × List Char))

/-- Takes elements behind separators in at most so many rounds. The round that finds no further
element counts, too; it gives its separator back. -/
def repeatGuarded : Nat → List Char → Except Stall (List α × List Char)
  | 0, _ => .error .outOfRounds
  | rounds + 1, text =>
    match separator text with
    | none => .ok ([], text)
    | some behind =>
      match element behind with
      | none => .ok ([], text)
      | some (a, rest) =>
        if behind.length < text.length ∧ rest.length < behind.length then
          (repeatGuarded rounds rest).map fun (others, last) => (a :: others, last)
        else
          .error .idle

/-- Takes a possibly empty list of separated elements, with so many rounds for those behind the
first. -/
def listGuarded (rounds : Nat) (text : List Char) : Except Stall (List α × List Char) :=
  match element text with
  | none => .ok ([], text)
  | some (a, rest) =>
    (repeatGuarded separator element rounds rest).map fun (others, last) => (a :: others, last)

end

example : repeatGuarded (fun text => some text) (fun text => some ((), text)) 9 [] =
    .error .idle := rfl

example : listGuarded readSeparator readLiteral 2 "1,2,3".toList = .error .outOfRounds := by
  decide +kernel

/-- Every round takes a separator and a limb, so the text is used up before the rounds are. -/
theorem repeatGuarded_eq_readMore {text : List Char} {rounds : Nat} (h : text.length < rounds) :
    repeatGuarded readSeparator readLiteral rounds text = .ok (readMore text) := by
  fun_induction readMore text generalizing rounds with
  | case1 text hseparator =>
    obtain ⟨rounds, rfl⟩ := Nat.exists_eq_add_one_of_ne_zero (Nat.ne_zero_of_lt h)
    simp only [repeatGuarded, hseparator]
  | case2 text behind hseparator hliteral =>
    obtain ⟨rounds, rfl⟩ := Nat.exists_eq_add_one_of_ne_zero (Nat.ne_zero_of_lt h)
    simp only [repeatGuarded, hseparator, hliteral]
  | case3 text behind hseparator literal rest hliteral hshorter literals last hmore ih =>
    obtain ⟨rounds, rfl⟩ := Nat.exists_eq_add_one_of_ne_zero (Nat.ne_zero_of_lt h)
    have hmoves : behind.length < text.length ∧ rest.length < behind.length :=
      ⟨readSeparator_length hseparator, readLiteral_length hliteral⟩
    have hrest : repeatGuarded readSeparator readLiteral rounds rest = .ok (literals, last) := by
      rw [ih (by omega), hmore]
    simp only [repeatGuarded, hseparator, hliteral, if_pos hmoves, hrest]
    rfl

/-- With as many rounds as characters, no round is missing and none stalls. -/
theorem listGuarded_eq_readElements {text : List Char} {rounds : Nat} (h : text.length ≤ rounds) :
    listGuarded readSeparator readLiteral rounds text = .ok (readElements text) := by
  unfold listGuarded readElements
  cases hliteral : readLiteral text with
  | none => rfl
  | some result =>
    obtain ⟨literal, rest⟩ := result
    have hrest : rest.length < rounds := Nat.lt_of_lt_of_le (readLiteral_length hliteral) h
    simp only [repeatGuarded_eq_readMore hrest]
    rfl

/-! ### What a list takes -/

theorem IsSeparator.carries {separator : List Char} (h : IsSeparator separator) :
    ∀ c ∈ separator, carriesSeparator c = true := by
  cases h with
  | comma before after hbefore hafter =>
    intro c hc
    rcases List.mem_append.mp hc with hc | hc
    · simp [carriesSeparator, hbefore c hc]
    · rcases List.mem_cons.mp hc with rfl | hc
      · simp [carriesSeparator]
      · simp [carriesSeparator, hafter c hc]
  | blanks separator hblank _ =>
    intro c hc
    simp [carriesSeparator, hblank c hc]

theorem IsLiteral.last {text : List Char} {literal : Literal} (h : IsLiteral text literal) :
    ∃ front d, text = front ++ [d] ∧ Digit.isHex d = true := by
  cases h with
  | decimal digits hne hdigits =>
    refine ⟨_, _, (List.dropLast_concat_getLast hne).symm, ?_⟩
    exact Digit.isHex_of_isDigit (hdigits _ (List.getLast_mem hne))
  | hex mark digits _ hne hdigits =>
    refine ⟨'0' :: mark :: digits.dropLast, digits.getLast hne, ?_,
      hdigits _ (List.getLast_mem hne)⟩
    rw [List.cons_append, List.cons_append, List.dropLast_concat_getLast hne]

theorem Continues.last {text : List Char} {literals : List Literal} (h : Continues text literals) :
    text = [] ∨ ∃ front d, text = front ++ [d] ∧ Digit.isHex d = true := by
  induction h with
  | done => exact Or.inl rfl
  | more separator limb rest literal literals _ hlit _ ih =>
    right
    rcases ih with rfl | ⟨front, d, rfl, hd⟩
    · obtain ⟨front, d, rfl, hd⟩ := hlit.last
      exact ⟨separator ++ front, d, by simp only [List.append_assoc, List.append_nil], hd⟩
    · exact ⟨separator ++ limb ++ front, d, (List.append_assoc ..).symm, hd⟩

/-- A bare list ends with a digit, if it is not empty, and so never with a separator. -/
theorem IsElements.last {text : List Char} {literals : List Literal}
    (h : IsElements text literals) :
    text = [] ∨ ∃ front d, text = front ++ [d] ∧ Digit.isHex d = true := by
  cases h with
  | none => exact Or.inl rfl
  | some limb rest literal literals hlit hcontinues =>
    right
    rcases hcontinues.last with rfl | ⟨front, d, rfl, hd⟩
    · rw [List.append_nil]
      exact hlit.last
    · exact ⟨limb ++ front, d, (List.append_assoc ..).symm, hd⟩

/-- A list ends with the last digit of a limb, and no separator does. -/
theorem IsElements.not_separator_suffix {text separator : List Char} {literals : List Literal}
    (h : IsElements text literals) (hsep : IsSeparator separator) : ¬ separator <:+ text := by
  rintro ⟨before, htext⟩
  obtain ⟨c, tail, hcons, -⟩ := hsep.head
  have hne : separator ≠ [] := by simp [hcons]
  rcases h.last with rfl | ⟨front, d, rfl, hd⟩
  · exact hne (List.append_eq_nil_iff.mp htext).2
  · rw [← List.dropLast_concat_getLast hne, ← List.append_assoc] at htext
    have hlast : separator.getLast hne = d :=
      List.singleton_inj.mp (List.append_inj_right' htext rfl)
    have hcarries := hsep.carries _ (List.getLast_mem hne)
    rw [hlast] at hcarries
    have hstop := carriesLiteral_of_carriesSeparator hcarries
    rw [carriesLiteral_of_isHex hd] at hstop
    contradiction

/-- Each further limb takes a separator and a digit at least. -/
theorem Continues.length_le {text : List Char} {literals : List Literal}
    (h : Continues text literals) : 2 * literals.length ≤ text.length := by
  induction h with
  | done => exact Nat.le_refl 0
  | more separator limb rest literal literals hsep hlit _ ih =>
    obtain ⟨c, tail, rfl, -⟩ := hsep.head
    obtain ⟨d, digits, rfl, -⟩ := hlit.head
    simp only [List.length_append, List.length_cons]
    omega

/-- A limb takes a character, and so does the separator in front of each limb but the first. -/
theorem IsElements.length_le {text : List Char} {literals : List Literal}
    (h : IsElements text literals) : 2 * literals.length ≤ text.length + 1 := by
  cases h with
  | none => exact Nat.zero_le _
  | some limb rest literal literals hlit hcontinues =>
    have hrest := hcontinues.length_le
    obtain ⟨d, digits, rfl, -⟩ := hlit.head
    simp only [List.length_append, List.length_cons]
    omega

/-- Every reader only moves forward, and all but the one of bare lists take at least a character
where they succeed. That one never fails: granted as many rounds as there are characters, or more,
its guarded loop comes to an end, with no more limbs than characters. It takes a list of the
notation, which does not end with a separator and which, read alone, has the same limbs. -/
theorem readers_move_forward (text : List Char) :
    (Parser.literal.Follows readLiteral ∧
      Parser.separator.Follows (fun text => (readSeparator text).map fun rest => ((), rest)) ∧
      Parser.bracketed.Follows readBracketed ∧ Parser.dump.Follows readDump ∧
      Parser.elements text = .ok (readElements text)) ∧
    (∀ literal rest, readLiteral text = some (literal, rest) → Advances text rest) ∧
    (∀ rest, readSeparator text = some rest → Advances text rest) ∧
    (∀ literals rest, readBracketed text = some (literals, rest) → Advances text rest) ∧
    (∀ literals rest, readDump text = some (literals, rest) → Advances text rest) ∧
    (∀ rounds, text.length ≤ rounds →
      listGuarded readSeparator readLiteral rounds text = .ok (readElements text)) ∧
    (readElements text).1.length ≤ text.length ∧
    ∃ taken, text = taken ++ (readElements text).2 ∧ IsElements taken (readElements text).1 ∧
      (∀ separator, IsSeparator separator → ¬ separator <:+ taken) ∧
      readElements taken = ((readElements text).1, []) := by
  obtain ⟨taken, htext, helements⟩ := readElements_sound text
  have hcount : (readElements text).1.length ≤ text.length := by
    have hpairs := helements.length_le
    have hsplit := congrArg List.length htext
    rw [List.length_append] at hsplit
    omega
  refine ⟨⟨follows_literal, follows_separator, follows_bracketed, follows_dump,
    follows_elements.taken rfl⟩, fun _ _ => readLiteral_advances, fun _ => readSeparator_advances,
    fun _ _ => readBracketed_advances, fun _ _ => readDump_advances,
    fun _ => listGuarded_eq_readElements, hcount, taken, htext, helements, ?_, ?_⟩
  · exact fun _ hsep => helements.not_separator_suffix hsep
  · exact helements.read_alone

/-- A comma behind the last limb is given back. -/
theorem last_comma_given_back :
    readLiteral "0x1F, 9 ,".toList = some (.hex ['1', 'F'], ", 9 ,".toList) ∧
      Advances "0x1F, 9 ,".toList ", 9 ,".toList ∧
      readSeparator " , 9".toList = some ['9'] ∧ Advances " , 9".toList ['9'] ∧
      readBracketed "[7]8".toList = some ([.decimal ['7']], ['8']) ∧
      Advances "[7]8".toList ['8'] ∧
      readDump "\x7b_M_elems=[7]\x7d8".toList = some ([.decimal ['7']], ['8']) ∧
      Advances "\x7b_M_elems=[7]\x7d8".toList ['8'] ∧
      "0x1F, 9 ,".toList.length ≤ 9 ∧
      listGuarded readSeparator readLiteral 9 "0x1F, 9 ,".toList =
        .ok ([.hex ['1', 'F'], .decimal ['9']], " ,".toList) ∧
      IsSeparator " ,".toList ∧
      ∃ taken, "0x1F, 9 ,".toList = taken ++ " ,".toList ∧ ¬ " ,".toList <:+ taken := by
  have hliteral : readLiteral "0x1F, 9 ,".toList = some (.hex ['1', 'F'], ", 9 ,".toList) := by
    decide +kernel
  have hseparator : readSeparator " , 9".toList = some ['9'] := by decide +kernel
  have hbracketed : readBracketed "[7]8".toList = some ([.decimal ['7']], ['8']) := by
    decide +kernel
  have hdump : readDump "\x7b_M_elems=[7]\x7d8".toList = some ([.decimal ['7']], ['8']) := by
    decide +kernel
  have helements : readElements "0x1F, 9 ,".toList =
      ([.hex ['1', 'F'], .decimal ['9']], " ,".toList) := by decide +kernel
  have hcomma : IsSeparator " ,".toList := .comma [' '] [] (by simp [Blanks, isBlank]) blanks_nil
  have hrounds : "0x1F, 9 ,".toList.length ≤ 9 := by decide
  obtain ⟨-, hmoves, -, -, -, hguarded, -, taken, htaken, -, hends, -⟩ :=
    readers_move_forward "0x1F, 9 ,".toList
  have hloop := hguarded 9 hrounds
  rw [helements] at hloop htaken
  exact ⟨hliteral, hmoves _ _ hliteral,
    hseparator, (readers_move_forward _).2.2.1 _ hseparator,
    hbracketed, (readers_move_forward _).2.2.2.1 _ _ hbracketed,
    hdump, (readers_move_forward _).2.2.2.2.1 _ _ hdump,
    hrounds, hloop, hcomma, taken, htaken, hends _ hcomma⟩

end Ident160.LimbList
