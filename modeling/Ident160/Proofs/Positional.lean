import Ident160.Proofs.Numerals
import Mathlib.Data.List.Induction

/-!
Positional notation in both directions. Digits of a fixed count and the numbers below a power of
the radix determine each other, a long run of digits splits where one likes, and the characters of
hexadecimal digits know no difference but that of the letter case.
-/

namespace Ident160.Digit

theorem ofDigits_append_singleton (radix d : Nat) (digits : List Nat) :
    ofDigits radix (digits ++ [d]) = ofDigits radix digits * radix + d := by
  simp only [ofDigits, List.foldl_append, List.foldl_cons, List.foldl_nil]

/-- The last digits of a number write what it leaves on division by the power of the radix. -/
theorem ofDigits_fixed (radix width n : Nat) :
    ofDigits radix (fixed radix width n) = n % radix ^ width := by
  induction width generalizing n with
  | zero => simp [fixed, ofDigits, Nat.mod_one]
  | succ width ih =>
    rw [fixed, ofDigits_append_singleton, ih, Nat.pow_succ', Nat.mod_mul, Nat.mul_comm,
      Nat.add_comm]

theorem lt_of_mem_fixed {radix width n d : Nat} (hradix : 0 < radix)
    (h : d ∈ fixed radix width n) : d < radix := by
  induction width generalizing n with
  | zero => simp [fixed] at h
  | succ width ih =>
    rw [fixed, List.mem_append, List.mem_singleton] at h
    rcases h with hhigh | hlast
    · exact ih hhigh
    · rw [hlast]
      exact Nat.mod_lt n hradix

/-- Digits are those of the number that they write, in their own count. -/
theorem fixed_ofDigits {radix : Nat} {digits : List Nat} (h : ∀ d ∈ digits, d < radix) :
    fixed radix digits.length (ofDigits radix digits) = digits := by
  induction digits using List.reverseRecOn with
  | nil => rfl
  | append_singleton digits d ih =>
    have hlast : d < radix := h d (by simp)
    have hinit : ∀ e ∈ digits, e < radix := fun e he => h e (by simp [he])
    have hhigh : (ofDigits radix digits * radix + d) / radix = ofDigits radix digits := by
      rw [Nat.mul_comm, Nat.mul_add_div (by omega), Nat.div_eq_of_lt hlast, Nat.add_zero]
    have hlow : (ofDigits radix digits * radix + d) % radix = d := by
      rw [Nat.mul_comm, Nat.mul_add_mod, Nat.mod_eq_of_lt hlast]
    rw [List.length_append, List.length_singleton, fixed, ofDigits_append_singleton, hhigh, hlow,
      ih hinit]

/-- The digits of a number are those of its high part in front of those of its low part. -/
theorem fixed_append (radix high low n : Nat) :
    fixed radix (high + low) n = fixed radix high (n / radix ^ low) ++ fixed radix low n := by
  induction low generalizing n with
  | zero => simp [fixed]
  | succ low ih =>
    rw [← Nat.add_assoc, fixed, fixed, ih, Nat.div_div_eq_div_mul, ← Nat.pow_succ',
      List.append_assoc]

theorem fixed_mod {radix : Nat} (hradix : 0 < radix) (width n : Nat) :
    fixed radix width (n % radix ^ width) = fixed radix width n := by
  have hlt : ∀ d ∈ fixed radix width n, d < radix := fun _ hd => lt_of_mem_fixed hradix hd
  have h := fixed_ofDigits hlt
  rw [ofDigits_fixed, length_fixed] at h
  exact h

/-! ### Hexadecimal characters -/

theorem value?_char (letters : LetterCase) {d : Nat} (h : d < 16) :
    value? 16 (char letters d) = some d := by
  have hall : ∀ d ∈ List.range 16,
      value? 16 (char .lower d) = some d ∧ value? 16 (char .upper d) = some d := by decide
  cases letters with
  | lower => exact (hall d (List.mem_range.mpr h)).1
  | upper => exact (hall d (List.mem_range.mpr h)).2

/-- Digits that are written out are read as the digits that they were. -/
theorem values_map_char (letters : LetterCase) {digits : List Nat} (h : ∀ d ∈ digits, d < 16) :
    values 16 (digits.map (char letters)) = digits := by
  rw [values, List.map_map]
  refine (List.map_congr_left fun d hd => ?_).trans (List.map_id _)
  simp only [Function.comp_apply, value?_char letters (h d hd), Option.getD_some, id_eq]

/-- A digit written anew in a chosen case is the digit with its letter in this case. -/
theorem char_of_value? {c : Char} {d : Nat} (h : value? 16 c = some d) :
    char .lower d = c.toLower ∧ char .upper d = c.toUpper := by
  have hdecimal : ∀ d ∈ List.range 10, char .lower d = (Char.ofNat (48 + d)).toLower ∧
      char .upper d = (Char.ofNat (48 + d)).toUpper := by decide
  have hcapital : ∀ e ∈ List.range 6, char .lower (10 + e) = (Char.ofNat (65 + e)).toLower ∧
      char .upper (10 + e) = (Char.ofNat (65 + e)).toUpper := by decide
  have hsmall : ∀ e ∈ List.range 6, char .lower (10 + e) = (Char.ofNat (97 + e)).toLower ∧
      char .upper (10 + e) = (Char.ofNat (97 + e)).toUpper := by decide
  have hc : c = Char.ofNat c.toNat := (Char.ofNat_toNat c).symm
  obtain ⟨_, hcode | hcode | hcode⟩ := value?_eq_some_iff.mp h
  · rw [hc, hcode.2.2]
    exact hdecimal d (List.mem_range.mpr (by omega))
  · obtain ⟨e, rfl⟩ := Nat.exists_eq_add_of_le (show 10 ≤ d by omega)
    rw [hc, hcode.2.2, show 55 + (10 + e) = 65 + e by omega]
    exact hcapital e (List.mem_range.mpr (by omega))
  · obtain ⟨e, rfl⟩ := Nat.exists_eq_add_of_le (show 10 ≤ d by omega)
    rw [hc, hcode.2.2, show 87 + (10 + e) = 97 + e by omega]
    exact hsmall e (List.mem_range.mpr (by omega))

end Ident160.Digit
