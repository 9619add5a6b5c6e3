import Ident160.Settings.Variables
import Ident160.Proofs.Numerals
import Mathlib.Data.List.TakeWhile

/-!
What the text of a variable stands for. Digits that denote a number below 2^63 are an integer, also
behind a plus sign; the digits of a greater number are read again as a floating-point number. A word
for a truth value is known in either letter case.
-/

namespace Ident160

namespace Digit

/-- Digits, at least one, that denote a number. Zeros may stand in front. -/
structure Writes (cs : List Char) (n : Nat) : Prop where
  nonempty : cs ≠ []
  digits : AllDigits 10 cs
  denotes : written 10 cs = n

namespace Writes

variable {cs : List Char} {n : Nat}

theorem isDigit (h : Writes cs n) {c : Char} (hc : c ∈ cs) : c.isDigit = true :=
  isSome_value?_ten.mp (h.digits c hc)

theorem values_eq (h : Writes cs n) : values 10 cs = cs.map fun c => c.toNat - 48 := by
  apply List.map_congr_left
  intro c hc
  obtain ⟨d, hd⟩ := Option.isSome_iff_exists.mp (h.digits c hc)
  have hcode := value?_eq_some_iff.mp hd
  rw [hd, Option.getD_some]
  omega

theorem toLower_eq (h : Writes cs n) : cs.map Char.toLower = cs := by
  have hsame : ∀ c ∈ cs, c.toLower = c := by
    intro c hc
    have hcode := isDigit_iff.mp (h.isDigit hc)
    have hsmall : ¬ (c.val ≥ 'A'.val ∧ c.val ≤ 'Z'.val) := by
      rintro ⟨hle, -⟩
      have hcapital : 65 ≤ c.toNat := hle
      omega
    exact dif_neg hsmall
  rw [List.map_congr_left hsame, List.map_id']

/-- A numeral is none of the words that start with a letter. -/
theorem ne_word (h : Writes cs n) {c : Char} {word : List Char} (hc : c.isDigit = false) :
    cs ≠ c :: word := by
  intro heq
  have hdigit := h.isDigit (heq ▸ List.mem_cons_self)
  rw [hc] at hdigit
  exact Bool.noConfusion hdigit

end Writes

theorem writes_decimal (n : Nat) : Writes (decimal n) n := by
  have hall : AllDigits 10 (decimal n) := fun c hc =>
    isSome_value?_ten.mpr (Nat.isDigit_of_mem_toDigits (by decide) (by decide) hc)
  have hne : decimal n ≠ [] := List.ne_nil_of_length_pos Nat.length_toDigits_pos
  have hwrites : Writes (decimal n) (written 10 (decimal n)) := ⟨hne, hall, rfl⟩
  have hdenotes : written 10 (decimal n) = n := by
    have hread : Nat.ofDigitChars 10 (decimal n) 0 = n :=
      Nat.ofDigitChars_toDigits (by decide) (by decide)
    simp only [Nat.ofDigitChars_eq_foldl, Nat.mul_comm 10] at hread
    rw [written, hwrites.values_eq, ofDigits, List.foldl_map]
    exact hread
  exact ⟨hne, hall, hdenotes⟩

theorem not_mem_decimal {c : Char} (hc : c.isDigit = false) (n : Nat) : c ∉ decimal n := by
  intro hmem
  rw [(writes_decimal n).isDigit hmem] at hc
  contradiction

end Digit

namespace Numeral

open Digit

variable {cs : List Char} {n : Nat}

theorem readInt64_digits (h : Writes cs n) :
    readInt64 cs = (readDigits 10 (2 ^ 63) .tooLarge 0 cs).map Int.ofNat := by
  unfold readInt64 readInt
  split
  · exact absurd rfl h.nonempty
  · exact absurd rfl (h.ne_word (by decide))
  · exact absurd rfl (h.ne_word (by decide))
  · exact absurd rfl (h.ne_word (by decide))
  · exact absurd rfl (h.ne_word (by decide))
  · rfl

/-- A plus sign in front of digits says nothing. -/
theorem readInt64_plus (h : Writes cs n) : readInt64 ('+' :: cs) = readInt64 cs := by
  rw [readInt64_digits h]
  obtain ⟨c, rest, rfl⟩ := List.exists_cons_of_ne_nil h.nonempty
  rfl

/-- Digits are an integer if their number is in range, and no integer otherwise. -/
theorem readInt64_eq_ok_iff (h : Writes cs n) (m : Int) :
    readInt64 cs = .ok m ↔ (n : Int) = m ∧ n < 2 ^ 63 := by
  have hdigits : ∀ k, readDigits 10 (2 ^ 63) .tooLarge 0 cs = .ok k ↔ n = k ∧ k < 2 ^ 63 := by
    intro k
    have hdenotes : extended 10 0 (values 10 cs) = n := h.denotes
    rw [readDigits_eq_ok_iff (by decide) (by decide), hdenotes]
    exact and_iff_right h.digits
  rw [readInt64_digits h, map_eq_ok_iff]
  constructor
  · rintro ⟨k, hk, rfl⟩
    obtain ⟨rfl, hsmall⟩ := (hdigits k).mp hk
    exact ⟨rfl, hsmall⟩
  · rintro ⟨rfl, hsmall⟩
    exact ⟨n, (hdigits n).mpr ⟨rfl, hsmall⟩, rfl⟩

end Numeral

namespace Variables

open Digit Document

variable {cs : List Char} {n : Nat}

theorem splitAtFirst_of_none {inClass : Char → Bool} (h : ∀ c ∈ cs, inClass c = false) :
    Decimal.splitAtFirst inClass cs = (cs, none) := by
  have hall : ∀ c ∈ cs, (!inClass c) = true := fun c hc => by rw [h c hc]; rfl
  have hdrop : cs.dropWhile (fun c => !inClass c) = [] := List.dropWhile_eq_nil_iff.mpr hall
  have htake : cs.takeWhile (fun c => !inClass c) = cs := List.takeWhile_eq_self_iff.mpr hall
  simp only [Decimal.splitAtFirst, hdrop, htake]

theorem takeSign_of_writes (h : Writes cs n) : Decimal.takeSign cs = (false, cs) := by
  unfold Decimal.takeSign
  split
  · exact absurd rfl (h.ne_word (by decide))
  · exact absurd rfl (h.ne_word (by decide))
  · rfl

theorem split_of_writes (h : Writes cs n) : Decimal.split cs = ⟨false, cs, none, none⟩ := by
  have hmark : ∀ c ∈ cs, Decimal.isExponentMark c = false := by
    intro c hc
    have hdigit := h.isDigit hc
    simp only [Decimal.isExponentMark, Bool.or_eq_false_iff, decide_eq_false_iff_not]
    constructor <;> (rintro rfl; exact absurd hdigit (by decide))
  have hpoint : ∀ c ∈ cs, decide (c = '.') = false := by
    intro c hc
    have hdigit := h.isDigit hc
    rw [decide_eq_false_iff_not]
    rintro rfl
    exact absurd hdigit (by decide)
  simp only [Decimal.split, takeSign_of_writes h, splitAtFirst_of_none hmark,
    splitAtFirst_of_none hpoint]

/-- Digits alone are a floating-point number, too. -/
theorem readFloat_of_writes (h : Writes cs n) :
    readFloat cs = some (.ofDecimal false n 0) := by
  have hinf : cs ≠ "inf".toList := h.ne_word (by decide)
  have hinfinity : cs ≠ "infinity".toList := h.ne_word (by decide)
  have hnan : cs ≠ "nan".toList := h.ne_word (by decide)
  have hsound : Decimal.isDigits cs = true := by
    have hall : cs.all Char.isDigit = true := List.all_eq_true.mpr fun c hc => h.isDigit hc
    rw [Decimal.isDigits, hall, Bool.and_true, Bool.not_eq_true', List.isEmpty_eq_false_iff]
    exact h.nonempty
  have hnumber : Decimal.natOf cs = n := by
    rw [Decimal.natOf, ← h.values_eq]
    exact h.denotes
  simp only [readFloat, takeSign_of_writes h, split_of_writes h, h.toLower_eq, hinf, hinfinity,
    hnan, hsound, decide_false, Bool.or_self, Bool.false_eq_true, if_false, Option.getD_none,
    List.append_nil, Option.all_none, Bool.and_true, if_true, Decimal.Parts.binary64, hnumber]
  rfl

/-- Digits are an integer up to the largest of 63 bits, and a floating-point number above. -/
theorem valueOf_of_writes {text : String} (h : Writes text.toList n) :
    valueOf text = if n < 2 ^ 63 then .integer n else .float (.ofDecimal false n 0) := by
  have htrue : text.toList ≠ "true".toList := h.ne_word (by decide)
  have hfalse : text.toList ≠ "false".toList := h.ne_word (by decide)
  simp only [valueOf, h.toLower_eq, htrue, hfalse, if_false, readFloat_of_writes h]
  by_cases hsmall : n < 2 ^ 63
  · rw [(Numeral.readInt64_eq_ok_iff h n).mpr ⟨rfl, hsmall⟩, if_pos hsmall]
  · cases hread : Numeral.readInt64 text.toList with
    | ok m => exact absurd ((Numeral.readInt64_eq_ok_iff h m).mp hread).2 hsmall
    | error fault => rw [if_neg hsmall]

theorem valueOf_of_plus {text : String} (htext : text.toList = '+' :: cs) (h : Writes cs n)
    (hsmall : n < 2 ^ 63) : valueOf text = .integer n := by
  have hread : Numeral.readInt64 text.toList = .ok n := by
    rw [htext, Numeral.readInt64_plus h]
    exact (Numeral.readInt64_eq_ok_iff h n).mpr ⟨rfl, hsmall⟩
  have hword : ∀ word : String, word.toList.head? ≠ some '+' →
      text.toList.map Char.toLower ≠ word.toList := by
    intro word hhead heq
    rw [htext] at heq
    exact hhead (heq ▸ rfl)
  simp only [valueOf, hword "true" (by decide), hword "false" (by decide), if_false, hread]

theorem entries_append (before after : List (String × String)) :
    entries (before ++ after) = entries before ++ entries after :=
  List.filterMap_append

theorem entries_cons_of_settingName {name path : String} (h : settingName name = some path)
    (text : String) (environment : List (String × String)) :
    entries ((name, text) :: environment) = (path, valueOf text) :: entries environment := by
  simp only [entries, List.filterMap_cons, h, Option.map_some]

/-- The word for a truth value, in any letter case. -/
def IsTruthWord (text : String) (b : Bool) : Prop :=
  text.toList.map Char.toLower = (if b then "true" else "false").toList

theorem valueOf_of_isTruthWord {text : String} {b : Bool} (h : IsTruthWord text b) :
    valueOf text = .boolean b := by
  unfold IsTruthWord at h
  cases b with
  | true => simp [valueOf, h]
  | false => simp [valueOf, h]

/-- The text of a variable spells a truth value, or a natural number of 63 bits. -/
def Spells (text : String) : Value → Prop
  | .boolean b => IsTruthWord text b
  | .integer m => ∃ (n : Nat) (digits : List Char), m = n ∧ n < 2 ^ 63 ∧ Writes digits n ∧
      (text.toList = digits ∨ text.toList = '+' :: digits)
  | _ => False

/-- A variable that spells a value stands for it. -/
theorem Spells.valueOf_eq {text : String} {v : Value} (h : Spells text v) :
    valueOf text = v := by
  cases v with
  | boolean b => exact valueOf_of_isTruthWord h
  | integer m =>
    obtain ⟨n, digits, rfl, hsmall, hwrites, rfl | hplus⟩ := h
    · rw [valueOf_of_writes hwrites, if_pos hsmall]
    · exact valueOf_of_plus hplus hwrites hsmall
  | null | float x | text s | array items | table es => exact h.elim

theorem dropExactly_eq_some {expected cs rest : List Char}
    (h : dropExactly expected cs = some rest) : cs = expected ++ rest := by
  induction expected generalizing cs with
  | nil => exact Option.some.inj h
  | cons e expected ih =>
    cases cs with
    | nil => cases h
    | cons c cs =>
      rw [dropExactly] at h
      split at h
      · next heq => rw [heq, ih h, List.cons_append]
      · cases h

/-- Only names that start with the program's own words are for settings. -/
theorem ownWords_starts {name path : String} (h : settingName name = some path) :
    ownWords <+: name.toList.map Char.toLower := by
  obtain ⟨rest, hrest, -⟩ := Option.map_eq_some_iff.mp h
  exact ⟨rest, (dropExactly_eq_some hrest).symm⟩

/-- Variables whose names start otherwise, in whatever letter case, are for no setting. -/
theorem entries_of_foreign {environment : List (String × String)}
    (h : ∀ entry ∈ environment, ¬ ownWords <+: entry.1.toList.map Char.toLower) :
    entries environment = [] := by
  refine List.filterMap_eq_nil_iff.mpr ?_
  rintro ⟨name, text⟩ hmem
  rw [Option.map_eq_none_iff, Option.eq_none_iff_forall_ne_some]
  intro path hpath
  exact h _ hmem (ownWords_starts hpath)

end Variables

end Ident160
