import Ident160.Proofs.LimbRendering

/-!
The renderings of five words, and what each word has to say in them. Whoever renders the words,
there are the same forty digits, in one letter case or the other, and a layout can do no more than
put the mark of hexadecimal in front. Eight of the digits belong to each word. They tell it from
every other word, and say nothing of its neighbours.
-/

namespace Ident160

open Digit

/-! ### The digits of a word -/

theorem length_wordDigits (letters : LetterCase) (word : UInt32) :
    (wordDigits letters word).length = 8 := by
  rw [wordDigits, List.length_map, length_fixed]

theorem written_wordDigits (letters : LetterCase) (word : UInt32) :
    written 16 (wordDigits letters word) = word.toNat := by
  have hlt : ∀ d ∈ fixed 16 8 word.toNat, d < 16 := fun _ hd => lt_of_mem_fixed (by decide) hd
  have hbound : word.toNat < 16 ^ 8 := word.toNat_lt
  rw [written, wordDigits, values_map_char letters hlt, ofDigits_fixed, Nat.mod_eq_of_lt hbound]

theorem wordDigits_inj {letters : LetterCase} {x y : UInt32} :
    wordDigits letters x = wordDigits letters y ↔ x = y := by
  constructor
  · intro h
    have hnumber := congrArg (written 16) h
    rwa [written_wordDigits, written_wordDigits, UInt32.toNat_inj] at hnumber
  · rintro rfl
    rfl

theorem upper_of_mem_wordsDigits {c : Char} {words : List UInt32}
    (h : c ∈ wordsDigits .upper words) : '0' ≤ c ∧ c ≤ '9' ∨ 'A' ≤ c ∧ c ≤ 'F' := by
  have hall : ∀ d ∈ List.range 16, '0' ≤ char .upper d ∧ char .upper d ≤ '9' ∨
      'A' ≤ char .upper d ∧ char .upper d ≤ 'F' := by decide
  obtain ⟨word, _, hc⟩ := List.mem_flatMap.mp h
  obtain ⟨d, hd, rfl⟩ := List.mem_map.mp hc
  exact hall d (List.mem_range.mpr (lt_of_mem_fixed (by decide) hd))

/-! ### The place of a word -/

/-- The eight characters of a text that stand where the digits of word `k` do. -/
def chunk (k : Nat) (text : String) : List Char := (text.toList.drop (8 * k)).take 8

/-- Pieces of one length that are put together are found at the multiples of this length. -/
theorem take_drop_flatMap {α β : Type} {f : α → List β} {n : Nat} (hlength : ∀ a, (f a).length = n)
    {xs : List α} {k : Nat} {a : α} (h : xs[k]? = some a) :
    ((xs.flatMap f).drop (n * k)).take n = f a := by
  induction xs generalizing k with
  | nil => simp at h
  | cons x xs ih =>
    rw [List.flatMap_cons]
    cases k with
    | zero =>
      rw [List.getElem?_cons_zero, Option.some.injEq] at h
      subst h
      rw [Nat.mul_zero, List.drop_zero, List.take_left' (hlength x)]
    | succ k =>
      rw [List.getElem?_cons_succ] at h
      have hbehind : n * (k + 1) = (f x).length + n * k := by
        rw [hlength, Nat.mul_succ, Nat.add_comm]
      rw [hbehind, List.drop_length_add_append, ih h]

theorem chunk_wordsDigits (letters : LetterCase) (words : Vector UInt32 5) (k : Fin 5) :
    chunk k (String.ofList (wordsDigits letters words.toList)) = wordDigits letters words[k] := by
  have hword : words.toList[k.val]? = some words[k] := by simp
  rw [chunk, String.toList_ofList]
  exact take_drop_flatMap (length_wordDigits letters) hword

theorem chunk_renderWords (words : Vector UInt32 5) (k : Fin 5) :
    chunk k (renderWords words) = wordDigits .upper words[k] :=
  chunk_wordsDigits .upper words k

/-- The digits at the place of a word depend on this word only, and determine it. -/
theorem chunk_eq_iff {words words' : Vector UInt32 5} {k : Fin 5} :
    chunk k (renderWords words) = chunk k (renderWords words') ↔ words[k] = words'[k] := by
  rw [chunk_renderWords, chunk_renderWords, wordDigits_inj]

/-- Different words are rendered differently. -/
theorem renderWords_inj {words words' : Vector UInt32 5} :
    renderWords words = renderWords words' ↔ words = words' := by
  constructor
  · intro h
    apply Vector.ext
    intro k hk
    exact (@chunk_eq_iff words words' ⟨k, hk⟩).mp (congrArg (chunk k) h)
  · rintro rfl
    rfl

/-- Two different words that change places change what stands there, and nothing else. -/
theorem chunk_swap_ne_iff (words : Vector UInt32 5) {i j : Fin 5} (h : words[i] ≠ words[j])
    (k : Fin 5) :
    chunk k (renderWords (words.swap i j)) ≠ chunk k (renderWords words) ↔ k = i ∨ k = j := by
  have hsame : (words.swap i j)[k] = words[k] ↔ k ≠ i ∧ k ≠ j := by
    rw [Fin.getElem_fin, Fin.getElem_fin, Vector.getElem_swap]
    by_cases hki : k = i
    · subst hki
      simpa using h.symm
    · by_cases hkj : k = j
      · subst hkj
        have hne : (k : Nat) ≠ i := fun heq => hki (Fin.ext heq)
        simpa [hne] using h
      · have hnei : (k : Nat) ≠ i := fun heq => hki (Fin.ext heq)
        have hnej : (k : Nat) ≠ j := fun heq => hkj (Fin.ext heq)
        simp [hnei, hnej, hki, hkj]
  rw [ne_eq, chunk_eq_iff, hsame]
  tauto

/-! ### The renderings -/

theorem lowercaseText_renderWords (a : Ident) :
    lowercaseText (renderWords a.words) = String.ofList (wordsDigits .lower a.words.toList) := by
  rw [lowercaseText, renderWords, String.toList_ofList, Ident.wordsDigits_toLower]

theorem renderWordList_words (a : Ident) :
    renderWordList a.words.toList = .ok (renderWords a.words) := by
  rw [renderWordList, Ident.ofWords?_words]

/-- All renderings of five words are the same forty digits: in uppercase what renders words or
writes them behind another text, and in lowercase what shows an identifier plainly. Settings choose
between the two, a layout only whether the mark stands in front. Each word alone decides about its
eight digits, so the digits determine the words, and two words that change places change theirs. -/
theorem renderings_agree_word_by_word :
    (∀ a : Ident,
      let hex := renderWords a.words
      hex.toList.length = 40 ∧
        (∀ c ∈ hex.toList, '0' ≤ c ∧ c ≤ '9' ∨ 'A' ≤ c ∧ c ≤ 'F') ∧
        hexRenderer.five a.words = hex ∧ renderWordList a.words.toList = .ok hex ∧
        hexRenderer.list a.words.toList = .ok hex ∧
        (∀ text, appendWords text a.words = text ++ hex) ∧ a.toUpperHex = hex ∧
        (∀ layout : Ident.Layout,
          a.upperHex layout = (if layout.marked then "0x" else "") ++ hex ∧
          a.lowerHex layout = (if layout.marked then "0x" else "") ++ lowercaseText hex ∧
          a.display layout = lowercaseText hex) ∧
        ∀ settings : Settings, (settings.describe a).hex =
          if settings.display.uppercase then hex else lowercaseText hex) ∧
    (∀ (words words' : Vector UInt32 5) (k : Fin 5),
      chunk k (renderWords words) = chunk k (renderWords words') ↔ words[k] = words'[k]) ∧
    (∀ words words' : Vector UInt32 5, renderWords words = renderWords words' ↔ words = words') ∧
    ∀ (words : Vector UInt32 5) (i j : Fin 5), words[i] ≠ words[j] → ∀ k : Fin 5,
      chunk k (renderWords (words.swap i j)) ≠ chunk k (renderWords words) ↔ k = i ∨ k = j := by
  refine ⟨?_, fun _ _ _ => chunk_eq_iff, fun _ _ => renderWords_inj,
    fun words _ _ h k => chunk_swap_ne_iff words h k⟩
  intro a hex
  have hdigits : hex.toList = wordsDigits .upper a.words.toList := String.toList_ofList
  have hlower : lowercaseText hex = String.ofList (wordsDigits .lower a.words.toList) :=
    lowercaseText_renderWords a
  have hplain : ∀ layout : Ident.Layout, a.lowerHex layout = layout.mark ++ lowercaseText hex := by
    intro layout
    rw [hlower, Ident.lowerHex]
  refine ⟨?_, ?_, rfl, renderWordList_words a, renderWordList_words a, fun _ => rfl, rfl, ?_, ?_⟩
  · rw [hdigits, Ident.wordsDigits_words, List.length_map, length_fixed]
  · intro c hc
    rw [hdigits] at hc
    exact upper_of_mem_wordsDigits hc
  · intro layout
    refine ⟨rfl, hplain layout, ?_⟩
    rw [Ident.display, hplain]
    exact String.empty_append
  · intro settings
    rfl

/-- Two words of a mixed identifier change places. -/
theorem first_and_last_word_swapped :
    let words : Vector UInt32 5 := #v[0xDEADBEEF, 0x12345678, 0, 10, 0xFFFFFFFF]
    renderWords words = "DEADBEEF12345678000000000000000AFFFFFFFF" ∧
      words[(0 : Fin 5)] ≠ words[(4 : Fin 5)] ∧
      (∀ c ∈ (renderWords words).toList, '0' ≤ c ∧ c ≤ '9' ∨ 'A' ≤ c ∧ c ≤ 'F') ∧
      chunk 0 (renderWords (words.swap 0 4)) ≠ chunk 0 (renderWords words) ∧
      chunk 3 (renderWords (words.swap 0 4)) = chunk 3 (renderWords words) := by
  intro words
  have hdiffer : words[(0 : Fin 5)] ≠ words[(4 : Fin 5)] := by decide
  obtain ⟨hpaths, -, -, hswap⟩ := renderings_agree_word_by_word
  obtain ⟨-, hdigits, -⟩ := hpaths ⟨words⟩
  refine ⟨by decide, hdiffer, hdigits, (hswap words 0 4 hdiffer 0).mpr (Or.inl rfl), ?_⟩
  by_contra hchanged
  exact absurd ((hswap words 0 4 hdiffer 3).mp hchanged) (by decide)

end Ident160
