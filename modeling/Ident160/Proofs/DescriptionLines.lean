import Ident160.Proofs.Descriptions
import Ident160.Proofs.IdentBits
import Ident160.Proofs.Renderings
import Ident160.Proofs.TextLines
import Ident160.Proofs.VariableValues
import Mathlib.Data.List.OfFn

/-!
What the lines of a description say. The digits of a limb are cut out of the text of the whole
value, while its number comes from the word itself. They agree since all words have the same
number of digits, in either letter case. Texts of other makes may have no description, which
depends on the places of the cuts alone.
-/

namespace Ident160

namespace Listing

/-- A text without the marks that turn bold letters on and off. -/
def unstyled : List Char → List Char
  | [] => []
  | '\x1b' :: '[' :: '1' :: 'm' :: text => unstyled text
  | '\x1b' :: '[' :: '2' :: '2' :: 'm' :: text => unstyled text
  | c :: text => c :: unstyled text

theorem unstyled_append {text : List Char} (h : '\x1b' ∉ text) (rest : List Char) :
    unstyled (text ++ rest) = text ++ unstyled rest := by
  induction text with
  | nil => rfl
  | cons c text ih =>
    obtain ⟨hc, htext⟩ := not_or.mp (mt List.mem_cons.mpr h)
    have hkept : ∀ rest, unstyled (c :: rest) = c :: unstyled rest := by
      intro rest
      rw [unstyled]
      · exact fun _ heq _ => hc heq.symm
      · exact fun _ heq _ => hc heq.symm
    rw [List.cons_append, hkept, ih htext, List.cons_append]

def headText (head rest : List Char) : List Char :=
  "\x1b[1m".toList ++ head ++ "\x1b[22m".toList ++ rest

def limbText (i : Nat) (piece : List Char) (word : UInt32) : List Char :=
  "  limb[".toList ++ Digit.decimal i ++ "]  ".toList ++ piece ++ "  ".toList ++
    padLeft 10 (Digit.decimal word.toNat)

theorem unstyled_headText {head rest : List Char} (hhead : '\x1b' ∉ head)
    (hrest : '\x1b' ∉ rest) : unstyled (headText head rest) = head ++ rest := by
  have hbold : "\x1b[1m".toList = ['\x1b', '[', '1', 'm'] := by decide
  have hplain : "\x1b[22m".toList = ['\x1b', '[', '2', '2', 'm'] := by decide
  have hopen : unstyled ("\x1b[1m".toList ++ (head ++ ("\x1b[22m".toList ++ rest))) =
      unstyled (head ++ ("\x1b[22m".toList ++ rest)) := by
    rw [hbold]
    rfl
  have hclose : unstyled ("\x1b[22m".toList ++ rest) = unstyled rest := by
    rw [hplain]
    rfl
  have hend : unstyled rest = rest := by
    have happend := unstyled_append hrest []
    rwa [List.append_nil, unstyled, List.append_nil] at happend
  unfold headText
  rw [List.append_assoc, List.append_assoc, hopen, unstyled_append hhead, hclose, hend]

def isLimbText (line : List Char) : Bool := "  limb[".toList.isPrefixOf line

theorem isLimbText_limbText (i : Nat) (piece : List Char) (word : UInt32) :
    isLimbText (limbText i piece word) = true := by
  rw [isLimbText, List.isPrefixOf_iff_prefix]
  unfold limbText
  simp only [List.append_assoc, List.prefix_append]

theorem isLimbText_headText (head rest : List Char) : isLimbText (headText head rest) = false := by
  have hlimb : "  limb[".toList = ' ' :: " limb[".toList := by decide
  have hbold : "\x1b[1m".toList = '\x1b' :: "[1m".toList := by decide
  unfold isLimbText headText
  rw [hlimb, hbold]
  rfl

/-- The line of a limb breaks only where its piece does. -/
theorem newline_not_mem_limbText {piece : List Char} (h : '\n' ∉ piece) (i : Nat)
    (word : UInt32) : '\n' ∉ limbText i piece word := by
  have hopen : '\n' ∉ "  limb[".toList := by decide
  have hclose : '\n' ∉ "]  ".toList := by decide
  have hblanks : '\n' ∉ "  ".toList := by decide
  have hpadding : ∀ n, '\n' ∉ List.replicate n ' ' :=
    fun n hmem => absurd (List.eq_of_mem_replicate hmem) (by decide)
  have hnumber : ∀ n, '\n' ∉ Digit.decimal n := Digit.not_mem_decimal (by decide)
  unfold limbText padLeft
  simp only [List.mem_append, hopen, hclose, hblanks, hpadding, hnumber, h, or_self,
    not_false_eq_true]

theorem newline_not_mem_headText {head rest : List Char} (hhead : '\n' ∉ head)
    (hrest : '\n' ∉ rest) : '\n' ∉ headText head rest := by
  have hbold : '\n' ∉ "\x1b[1m".toList := by decide
  have hplain : '\n' ∉ "\x1b[22m".toList := by decide
  unfold headText
  simp only [List.mem_append, hbold, hhead, hplain, hrest, or_self, not_false_eq_true]

end Listing

namespace Settings

open Listing (headText limbText)

variable (settings : Settings) (a : Ident)

def limbTexts : List (List Char) :=
  List.ofFn fun i : Fin 5 => limbText i (chunk i (settings.describe a).hex) (a.words.get i)

/-- The lines that tell a value, from the first one down. -/
def describedLines (showLimbs : Bool) : List (List Char) :=
  headText ((settings.digits a).take 8) ((settings.digits a).drop 8) ::
    if showLimbs then
      List.replicate 40 '─' :: settings.limbTexts a ++
        ["  bit length: ".toList ++ Digit.decimal a.toNat.size]
    else []

theorem limbTexts_eq_map :
    settings.limbTexts a =
      ((((List.range 5).map fun i => ((settings.digits a).drop (8 * i)).take 8).zip
        a.words.toList).zipIdx).map fun ((piece, word), i) => limbText i piece word := by
  apply List.ext_getElem
  · simp [limbTexts]
  · intro i hi _
    simp only [limbTexts, List.getElem_ofFn, List.getElem_map, List.getElem_zipIdx,
      List.getElem_zip, List.getElem_range, Vector.getElem_toList, Nat.zero_add]
    rfl

theorem limbLines_eq_unlines :
    Listing.limbLines ((List.range 5).map fun i => ((settings.digits a).drop (8 * i)).take 8)
        (settings.describe a) =
      unlines (List.replicate 40 '─' :: settings.limbTexts a ++
        ["  bit length: ".toList ++ Digit.decimal a.toNat.size]) := by
  rw [limbTexts_eq_map, List.cons_append, unlines_cons, unlines_append, unlines_map,
    unlines_singleton, ← Ident.bitLength_eq_size, Listing.limbLines, Listing.ruler,
    List.append_assoc, List.append_assoc]
  rfl

theorem described_eq_unlines (showLimbs : Bool) :
    settings.described a showLimbs = unlines (settings.describedLines a showLimbs) := by
  cases showLimbs with
  | true =>
    rw [described, if_pos rfl, limbLines_eq_unlines, describedLines, if_pos rfl, unlines_cons]
    exact List.append_assoc _ ['\n'] _
  | false =>
    rw [described, if_neg Bool.false_ne_true, List.append_nil]
    exact (unlines_singleton _).symm

theorem not_mem_chunk {c : Char} (hc : Digit.value? 16 c = none) (k : Nat) :
    c ∉ chunk k (settings.describe a).hex := by
  intro hmem
  exact settings.not_mem_digits a hc (List.mem_of_mem_drop (List.mem_of_mem_take hmem))

theorem newline_not_mem_first :
    '\n' ∉ headText ((settings.digits a).take 8) ((settings.digits a).drop 8) := by
  have hdigits : '\n' ∉ settings.digits a := settings.not_mem_digits a (by decide)
  exact Listing.newline_not_mem_headText (fun hmem => hdigits (List.mem_of_mem_take hmem))
    (fun hmem => hdigits (List.mem_of_mem_drop hmem))

theorem newline_not_mem_describedLines (showLimbs : Bool) :
    ∀ line ∈ settings.describedLines a showLimbs, '\n' ∉ line := by
  have hhead := settings.newline_not_mem_first a
  have hruler : '\n' ∉ List.replicate 40 '─' :=
    fun hmem => absurd (List.eq_of_mem_replicate hmem) (by decide)
  have hlimbs : ∀ line ∈ settings.limbTexts a, '\n' ∉ line := by
    intro line hline
    obtain ⟨i, rfl⟩ := List.mem_ofFn.mp hline
    exact Listing.newline_not_mem_limbText (settings.not_mem_chunk a (by decide) i) i _
  have hlast : '\n' ∉ "  bit length: ".toList ++ Digit.decimal a.toNat.size := by
    have hlabel : '\n' ∉ "  bit length: ".toList := by decide
    have hnumber : '\n' ∉ Digit.decimal a.toNat.size := Digit.not_mem_decimal (by decide) _
    simp only [List.mem_append, hlabel, hnumber, or_self, not_false_eq_true]
  cases showLimbs with
  | true =>
    rw [describedLines, if_pos rfl]
    refine List.forall_mem_cons.mpr ⟨hhead, List.forall_mem_cons.mpr ⟨hruler, ?_⟩⟩
    exact List.forall_mem_append.mpr ⟨hlimbs, List.forall_mem_singleton.mpr hlast⟩
  | false =>
    rw [describedLines, if_neg Bool.false_ne_true]
    exact List.forall_mem_singleton.mpr hhead

/-- No other line looks like that of a limb. -/
theorem filter_describedLines (showLimbs : Bool) :
    (settings.describedLines a showLimbs).filter Listing.isLimbText =
      if showLimbs then settings.limbTexts a else [] := by
  have hruler : Listing.isLimbText (List.replicate 40 '─') = false := by decide
  have hlast : Listing.isLimbText ("  bit length: ".toList ++ Digit.decimal a.toNat.size) =
      false := by
    have hlabel : "  bit length: ".toList = ' ' :: ' ' :: 'b' :: "it length: ".toList := by decide
    have hlimb : "  limb[".toList = ' ' :: ' ' :: 'l' :: "imb[".toList := by decide
    rw [Listing.isLimbText, hlabel, hlimb]
    rfl
  have hlimbs : (settings.limbTexts a).filter Listing.isLimbText = settings.limbTexts a := by
    rw [List.filter_eq_self]
    intro line hline
    obtain ⟨i, rfl⟩ := List.mem_ofFn.mp hline
    exact Listing.isLimbText_limbText i _ _
  rw [describedLines,
    List.filter_cons_of_neg (ne_true_of_eq_false (Listing.isLimbText_headText _ _))]
  cases showLimbs with
  | true =>
    rw [if_pos rfl, if_pos rfl, List.cons_append,
      List.filter_cons_of_neg (ne_true_of_eq_false hruler), List.filter_append, hlimbs,
      List.filter_cons_of_neg (ne_true_of_eq_false hlast), List.filter_nil, List.append_nil]
  | false => rfl

/-- A description falls into the lines that it was put together from. -/
theorem linesOf_described (showLimbs : Bool) :
    linesOf (settings.described a showLimbs) = settings.describedLines a showLimbs := by
  rw [described_eq_unlines, linesOf_unlines (settings.newline_not_mem_describedLines a showLimbs)]

theorem unstyled_first :
    Listing.unstyled (headText ((settings.digits a).take 8) ((settings.digits a).drop 8)) =
      (settings.describe a).hex.toList := by
  have hdigits : '\x1b' ∉ settings.digits a := settings.not_mem_digits a (by decide)
  rw [Listing.unstyled_headText (fun hmem => hdigits (List.mem_of_mem_take hmem))
    (fun hmem => hdigits (List.mem_of_mem_drop hmem)), List.take_append_drop, digits]

/-- The digits at the place of a limb are those of its word. -/
theorem written_chunk (i : Fin 5) :
    Digit.AllDigits 16 (chunk i (settings.describe a).hex) ∧
      Digit.written 16 (chunk i (settings.describe a).hex) = (a.words.get i).toNat := by
  constructor
  · intro c hc
    exact (settings.digits_spec a).2 c (List.mem_of_mem_drop (List.mem_of_mem_take hc))
  · rw [describe_hex, chunk_wordsDigits, written_wordDigits]
    rfl

end Settings

/-- A value always has a description. Its first line shows all digits, and below them each limb has
a line with its own eight digits and the same number in decimal; the last line tells how many bits
the value has. A description of any other make is told exactly if all its cuts fall between
characters of its digits. -/
theorem description_tells_value :
    (∀ (settings : Settings) (a : Ident) (showLimbs : Bool),
      let hex := (settings.describe a).hex
      ∃ text first below, Listing.describe (settings.describe a) showLimbs = some text ∧
        linesOf text.toList = first :: below ∧ Listing.unstyled first = hex.toList ∧
        (if showLimbs then
          below = List.replicate 40 '─' ::
            (List.ofFn fun i : Fin 5 => Listing.limbText i (chunk i hex) (a.words.get i)) ++
              ["  bit length: ".toList ++ Digit.decimal a.toNat.size] ∧
            ((first :: below).filter Listing.isLimbText).length = 5
        else below = []) ∧
        ∀ i : Fin 5, Digit.AllDigits 16 (chunk i hex) ∧
          Digit.written 16 (chunk i hex) = (a.words.get i).toNat ∧
          Digit.Writes (Digit.decimal (a.words.get i).toNat) (a.words.get i).toNat) ∧
    ∀ (d : Description) (showLimbs : Bool), Listing.describe d showLimbs = none ↔
      ∃ offset ∈ Listing.cuts showLimbs, Listing.Misplaced d.hex.toList offset := by
  refine ⟨?_, fun d showLimbs => Listing.describe_eq_none_iff⟩
  intro settings a showLimbs hex
  have hlines := settings.linesOf_described a showLimbs
  have hfilter := settings.filter_describedLines a showLimbs
  rw [← String.toList_ofList (l := settings.described a showLimbs)] at hlines
  refine ⟨_, _, _, settings.describe_eq a showLimbs, hlines, settings.unstyled_first a, ?_, ?_⟩
  · cases showLimbs with
    | true =>
      have hcount := congrArg List.length hfilter
      rw [if_pos rfl, Settings.limbTexts, List.length_ofFn] at hcount
      exact ⟨rfl, hcount⟩
    | false => rfl
  · intro i
    obtain ⟨hdigits, hwritten⟩ := settings.written_chunk a i
    exact ⟨hdigits, hwritten, Digit.writes_decimal _⟩

/-- A character of two bytes stands across the eighth byte. -/
theorem no_description_across_a_character :
    Listing.describe ⟨"1234567éABCDEF", #v[0, 0, 0, 0, 0], 0⟩ false = none := by
  have hhex : "1234567éABCDEF".toList = "1234567".toList ++ 'é' :: "ABCDEF".toList := by
    decide +kernel
  have hstart : Listing.utf8Length "1234567".toList = 7 := by decide +kernel
  have hsize : Char.utf8Size 'é' = 2 := by decide
  refine (description_tells_value.2 _ _).mpr ⟨8, by decide, ?_⟩
  rw [hhex]
  exact .inside _ _ 'é' 8 (by rw [hstart]; decide) (by rw [hstart, hsize]; decide)

end Ident160
