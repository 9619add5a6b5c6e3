import Ident160.Numeral
import Ident160.Proofs.Results
import Mathlib.Tactic.SplitIfs

/-!
Numerals and the numbers they denote. A run of digits denotes a number, whatever zeros it begins
with, and the readers of integers accept exactly the runs that denote a number in range. One plus
sign may stand in front.
-/

namespace Ident160

namespace Digit

/-- The digits by the code points of their characters. -/
theorem value?_eq_some_iff {radix d : Nat} {c : Char} :
    value? radix c = some d ↔ d < radix ∧
      (48 ≤ c.toNat ∧ c.toNat ≤ 57 ∧ c.toNat = 48 + d ∨
        65 ≤ c.toNat ∧ c.toNat ≤ 70 ∧ c.toNat = 55 + d ∨
        97 ≤ c.toNat ∧ c.toNat ≤ 102 ∧ c.toNat = 87 + d) := by
  have hrange : ∀ a b : Char, (a ≤ c ∧ c ≤ b) = (a.toNat ≤ c.toNat ∧ c.toNat ≤ b.toNat) :=
    fun a b => rfl
  simp only [value?, hrange, Char.reduceToNat]
  split_ifs
  all_goals
    simp only [Option.some.injEq, false_iff]
    omega

theorem isDigit_iff {c : Char} : c.isDigit = true ↔ 48 ≤ c.toNat ∧ c.toNat ≤ 57 := by
  simp only [Char.isDigit, Bool.and_eq_true, decide_eq_true_eq]
  exact Iff.rfl

theorem isSome_value?_ten {c : Char} : (value? 10 c).isSome = true ↔ c.isDigit = true := by
  rw [Option.isSome_iff_exists, isDigit_iff]
  constructor
  · intro h
    obtain ⟨d, hd⟩ := h
    have hcode := value?_eq_some_iff.mp hd
    omega
  · intro h
    exact ⟨c.toNat - 48, value?_eq_some_iff.mpr (by omega)⟩

theorem isHex_of_isDigit {c : Char} (h : c.isDigit = true) : isHex c = true := by
  rw [isDigit_iff] at h
  exact Option.isSome_iff_exists.mpr ⟨c.toNat - 48, value?_eq_some_iff.mpr (by omega)⟩

def AllDigits (radix : Nat) (cs : List Char) : Prop := ∀ c ∈ cs, (value? radix c).isSome = true

theorem allDigits_cons {radix : Nat} {c : Char} {cs : List Char} :
    AllDigits radix (c :: cs) ↔ (value? radix c).isSome = true ∧ AllDigits radix cs :=
  List.forall_mem_cons

theorem not_allDigits_plus (radix : Nat) (cs : List Char) : ¬ AllDigits radix ('+' :: cs) := by
  intro h
  obtain ⟨d, hd⟩ := Option.isSome_iff_exists.mp (allDigits_cons.mp h).1
  have hcode := value?_eq_some_iff.mp hd
  simp only [Char.reduceToNat] at hcode
  omega

/-- The values of digits; what is no digit counts as zero. -/
def values (radix : Nat) (cs : List Char) : List Nat := cs.map fun c => (value? radix c).getD 0

def written (radix : Nat) (cs : List Char) : Nat := ofDigits radix (values radix cs)

/-- The number that `n` becomes when digits are put behind it. -/
def extended (radix n : Nat) (digits : List Nat) : Nat :=
  digits.foldl (fun n d => n * radix + d) n

theorem ofDigits_eq_extended (radix : Nat) (digits : List Nat) :
    ofDigits radix digits = extended radix 0 digits := rfl

theorem extended_cons (radix n d : Nat) (digits : List Nat) :
    extended radix n (d :: digits) = extended radix (n * radix + d) digits := rfl

theorem le_extended {radix : Nat} (hradix : 0 < radix) (n : Nat) (digits : List Nat) :
    n ≤ extended radix n digits := by
  induction digits generalizing n with
  | nil => exact Nat.le_refl n
  | cons d digits ih =>
    have hhead : n ≤ n * radix + d := Nat.le_add_right_of_le (Nat.le_mul_of_pos_right n hradix)
    exact Nat.le_trans hhead (ih _)

end Digit

namespace Numeral

open Digit

/-- Reading stops at the digit with which the number leaves its range, and no later digit could
bring it back. -/
theorem readDigits_eq_ok_iff {radix limit n m : Nat} {outside : Fault} {cs : List Char}
    (hradix : 0 < radix) (hn : n < limit) :
    readDigits radix limit outside n cs = .ok m ↔
      AllDigits radix cs ∧ extended radix n (values radix cs) = m ∧ m < limit := by
  induction cs generalizing n with
  | nil =>
    have hempty : extended radix n (values radix []) = n := rfl
    rw [readDigits, Except.ok.injEq, hempty]
    constructor
    · intro hm
      exact ⟨by simp [AllDigits], hm, by omega⟩
    · intro h
      exact h.2.1
  | cons c cs ih =>
    rw [allDigits_cons]
    cases hc : value? radix c with
    | none => simp [readDigits, hc]
    | some d =>
      have hstep : extended radix n (values radix (c :: cs)) =
          extended radix (n * radix + d) (values radix cs) := by
        simp only [values, List.map_cons, extended_cons, hc, Option.getD_some]
      simp only [readDigits, hc, hstep, Option.isSome_some, true_and]
      split
      · next hlimit => exact ih hlimit
      · next hlimit =>
        have hle := le_extended hradix (n * radix + d) (values radix cs)
        simp only [reduceCtorEq, false_iff]
        intro h
        omega

/-- A natural number is read from its digits, behind a plus sign or without one. -/
theorem readNat_eq_ok_iff {radix limit m : Nat} {cs : List Char} (hradix : 0 < radix)
    (hlimit : 0 < limit) :
    readNat radix limit cs = .ok m ↔
      ∃ digits, (cs = digits ∨ cs = '+' :: digits) ∧ digits ≠ [] ∧ AllDigits radix digits ∧
        written radix digits = m ∧ m < limit := by
  simp only [written, ofDigits_eq_extended]
  unfold readNat
  split
  · simp
  · have hplus := not_allDigits_plus radix []
    simp only [reduceCtorEq, false_iff]
    intro h
    obtain ⟨digits, rfl | hcons, hne, hdigits, _⟩ := h
    · exact hplus hdigits
    · exact hne (List.cons.inj hcons).2.symm
  · next cs hne =>
    rw [readDigits_eq_ok_iff hradix hlimit]
    constructor
    · intro h
      obtain ⟨hdigits, hm⟩ := h
      exact ⟨cs, Or.inr rfl, fun h => hne h, hdigits, hm⟩
    · intro h
      obtain ⟨digits, rfl | hcons, _, hdigits, hm⟩ := h
      · exact absurd hdigits (not_allDigits_plus radix cs)
      · obtain rfl := (List.cons.inj hcons).2
        exact ⟨hdigits, hm⟩
  · next hnil _ hplus =>
    rw [readDigits_eq_ok_iff hradix hlimit]
    constructor
    · intro h
      obtain ⟨hdigits, hm⟩ := h
      exact ⟨cs, Or.inl rfl, hnil, hdigits, hm⟩
    · intro h
      obtain ⟨digits, rfl | hcons, _, hdigits, hm⟩ := h
      · exact ⟨hdigits, hm⟩
      · exact absurd hcons (hplus digits)

/-- A word is read from its digits, behind a plus sign or without one. -/
theorem readWord_eq_ok_iff {radix : Nat} {cs : List Char} {word : UInt32} (hradix : 0 < radix) :
    readWord radix cs = .ok word ↔
      ∃ digits, (cs = digits ∨ cs = '+' :: digits) ∧ digits ≠ [] ∧ AllDigits radix digits ∧
        written radix digits = word.toNat := by
  have hread : readWord radix cs = .ok word ↔ readNat radix (2 ^ 32) cs = .ok word.toNat := by
    rw [readWord, map_eq_ok_iff]
    constructor
    · intro h
      obtain ⟨m, hnat, rfl⟩ := h
      obtain ⟨_, _, _, _, _, hm⟩ := (readNat_eq_ok_iff hradix (by decide)).mp hnat
      have hword : (UInt32.ofNat m).toNat = m := UInt32.toNat_ofNat_of_lt hm
      rw [hword]
      exact hnat
    · intro hnat
      exact ⟨word.toNat, hnat, UInt32.ofNat_toNat⟩
  rw [hread, readNat_eq_ok_iff hradix (by decide)]
  constructor
  · intro h
    obtain ⟨digits, hcs, hne, hdigits, hm, _⟩ := h
    exact ⟨digits, hcs, hne, hdigits, hm⟩
  · intro h
    obtain ⟨digits, hcs, hne, hdigits, hm⟩ := h
    exact ⟨digits, hcs, hne, hdigits, hm, word.toNat_lt⟩

end Numeral

end Ident160
