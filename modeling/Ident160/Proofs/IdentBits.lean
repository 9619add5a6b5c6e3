import Ident160.Ident.Bits
import Ident160.Proofs.IdentNumbers
import Mathlib.Data.List.GetD
import Mathlib.Data.Nat.Size
import Mathlib.Order.Nat

/-!
Identifiers as binary numbers. The bits of an identifier are the binary digits of its number, its
bit length is the number of these digits, and an operation that works on the words bit by bit works
on the numbers bit by bit. The words are listed from either end, so the index of a word is counted
from the low end here.
-/

namespace Ident160

/-! ### Words -/

namespace Words

theorem testBit_toNat (words : List UInt32) (i : Nat) :
    (toNat words).testBit i = (words.getD (i / 32) 0).toNat.testBit (i % 32) := by
  induction words generalizing i with
  | nil => simp [toNat]
  | cons word words ih =>
    rw [toNat, Nat.add_comm, Nat.testBit_two_pow_mul_add _ word.toNat_lt]
    by_cases hlow : i < 32
    · rw [if_pos hlow, Nat.div_eq_of_lt hlow, Nat.mod_eq_of_lt hlow, List.getD_cons_zero]
    · have hword : i / 32 = (i - 32) / 32 + 1 := by omega
      have hplace : i % 32 = (i - 32) % 32 := by omega
      rw [if_neg hlow, ih, hword, hplace, List.getD_cons_succ]

/-- What is done to the bits of words of two numbers of the same length is done to the bits of the
numbers. Nothing may come from bits that are not set, as there are such bits above the words. -/
theorem testBit_toNat_zipWith {op : UInt32 → UInt32 → UInt32} {f : Bool → Bool → Bool}
    (hop : ∀ x y i, (op x y).toNat.testBit i = f (x.toNat.testBit i) (y.toNat.testBit i))
    {xs ys : List UInt32} (h : xs.length = ys.length) (hf : f false false = false) (i : Nat) :
    (toNat (List.zipWith op xs ys)).testBit i =
      f ((toNat xs).testBit i) ((toNat ys).testBit i) := by
  simp only [testBit_toNat]
  by_cases hin : i / 32 < xs.length
  · have hin' : i / 32 < ys.length := h ▸ hin
    have hzip : i / 32 < (List.zipWith op xs ys).length := by
      rw [List.length_zipWith]
      omega
    rw [List.getD_eq_getElem _ _ hzip, List.getElem_zipWith, hop,
      List.getD_eq_getElem _ _ hin, List.getD_eq_getElem _ _ hin']
  · have hzip : (List.zipWith op xs ys).length ≤ i / 32 := by
      rw [List.length_zipWith]
      omega
    rw [List.getD_eq_default _ _ hzip, List.getD_eq_default _ _ (by omega),
      List.getD_eq_default _ _ (by omega)]
    simp [hf]

end Words

namespace Ident

theorem wordBit_eq_testBit (word : UInt32) {i : UInt32} (h : i.toNat < 32) :
    wordBit word i = word.toNat.testBit i.toNat := by
  have hbit : ((word >>> i) &&& 1).toNat = word.toNat / 2 ^ i.toNat % 2 := by
    rw [UInt32.toNat_and, UInt32.toNat_shiftRight, Nat.mod_eq_of_lt h, Nat.shiftRight_eq_div_pow]
    exact Nat.and_one_is_mod _
  rw [wordBit, Nat.testBit_eq_decide_div_mod_eq, ← hbit, Bool.beq_eq_decide_eq]
  exact decide_eq_decide.mpr UInt32.toNat_inj.symm

/-- A word has at most `n` significant bits exactly if it is below 2 to the power of `n`. -/
theorem wordBitLength_le_iff (word : UInt32) (n : Nat) :
    wordBitLength word ≤ n ↔ word.toNat < 2 ^ n := by
  by_cases hzero : word = 0
  · rw [wordBitLength, if_pos hzero, hzero]
    exact iff_of_true (Nat.zero_le n) (Nat.two_pow_pos n)
  · have hne : word.toNat ≠ 0 := fun h => hzero (UInt32.toNat_inj.mp h)
    rw [wordBitLength, if_neg hzero, ← Nat.log2_lt hne]
    exact Nat.succ_le_iff

/-- The first word that is not zero decides, as it stands above all that follow. -/
theorem highBitLength_le_iff (words : List UInt32) (n : Nat) :
    highBitLength words ≤ n ↔ Words.toNat words.reverse < 2 ^ n := by
  induction words with
  | nil => exact iff_of_true (Nat.zero_le n) (Nat.two_pow_pos n)
  | cons word words ih =>
    have hlow := Words.toNat_lt words.reverse
    rw [List.reverse_cons, Words.toNat_append]
    rw [List.length_reverse] at hlow ⊢
    have hsingle : Words.toNat [word] = word.toNat := by simp [Words.toNat]
    rw [highBitLength, hsingle]
    by_cases hzero : word = 0
    · simpa [hzero] using ih
    · rw [if_neg hzero]
      by_cases hn : 32 * words.length ≤ n
      · obtain ⟨m, rfl⟩ := Nat.exists_eq_add_of_le hn
        have hword : wordBitLength word + 32 * words.length ≤ 32 * words.length + m ↔
            word.toNat < 2 ^ m := by
          rw [← wordBitLength_le_iff]
          omega
        rw [hword, Nat.pow_add]
        constructor
        · intro h
          have hnext : 2 ^ (32 * words.length) * (word.toNat + 1) ≤
              2 ^ (32 * words.length) * 2 ^ m := Nat.mul_le_mul_left _ h
          rw [Nat.mul_succ] at hnext
          omega
        · intro h
          have hprod : 2 ^ (32 * words.length) * word.toNat < 2 ^ (32 * words.length) * 2 ^ m :=
            Nat.lt_of_le_of_lt (Nat.le_add_left _ _) h
          exact Nat.lt_of_mul_lt_mul_left hprod
      · have hpos : 0 < word.toNat := Nat.pos_of_ne_zero fun h => hzero (UInt32.toNat_inj.mp h)
        have hpow : 2 ^ n ≤ 2 ^ (32 * words.length) :=
          Nat.pow_le_pow_right (by decide) (by omega)
        have hword : 2 ^ (32 * words.length) ≤ 2 ^ (32 * words.length) * word.toNat :=
          Nat.le_mul_of_pos_right _ hpos
        constructor <;> intro h <;> omega

/-! ### Identifiers -/

theorem bit_eq_testBit (a : Ident) (i : UInt32) : a.bit i = a.toNat.testBit i.toNat := by
  by_cases hi : i < 160
  · have hlt : i.toNat < 160 := UInt32.lt_iff_toNat_lt.mp hi
    have hplace : (i % 32).toNat = i.toNat % 32 := UInt32.toNat_mod i 32
    have hword : (i / 32).toNat = i.toNat / 32 := UInt32.toNat_div i 32
    have hin : i.toNat / 32 < a.lowWords.length := by
      rw [length_lowWords]
      omega
    have hget : a.lowWords.getD (i.toNat / 32) 0 = a.words[4 - (i / 32).toNat] := by
      rw [List.getD_eq_getElem _ _ hin]
      simp only [lowWords, List.getElem_reverse, Vector.length_toList, hword]
      rfl
    rw [bit, if_pos hi, wordBit_eq_testBit _ (by rw [hplace]; omega), toNat,
      Words.testBit_toNat, hget, hplace]
  · have hge : 160 ≤ i.toNat := by
      rw [UInt32.lt_iff_toNat_lt] at hi
      exact Nat.le_of_not_lt hi
    have hsmall : a.toNat < 2 ^ i.toNat :=
      Nat.lt_of_lt_of_le a.toNat_lt (Nat.pow_le_pow_right (by decide) hge)
    rw [bit, if_neg hi, Nat.testBit_lt_two_pow hsmall]

/-- The bit length of an identifier is that of its number. -/
theorem bitLength_eq_size (a : Ident) : a.bitLength = a.toNat.size := by
  apply eq_of_forall_ge_iff
  intro n
  rw [Nat.size_le]
  exact highBitLength_le_iff a.words.toList n

theorem bitLength_le (a : Ident) : a.bitLength ≤ 160 := by
  rw [bitLength_eq_size, Nat.size_le]
  exact a.toNat_lt

theorem lt_two_pow_bitLength (a : Ident) : a.toNat < 2 ^ a.bitLength := by
  rw [bitLength_eq_size]
  exact Nat.lt_size_self a.toNat

theorem lowWords_zipWith (op : UInt32 → UInt32 → UInt32) (a b : Ident) :
    (Ident.mk (Vector.zipWith op a.words b.words)).lowWords =
      List.zipWith op a.lowWords b.lowWords := by
  have hlength : a.words.toList.length = b.words.toList.length := by simp
  rw [lowWords, lowWords, lowWords, Vector.toList_zipWith, List.reverse_zipWith hlength]

/-- What is done to the bits of all words is done to the bits of the number. -/
theorem testBit_zipWith {op : UInt32 → UInt32 → UInt32} {f : Bool → Bool → Bool}
    (hop : ∀ x y i, (op x y).toNat.testBit i = f (x.toNat.testBit i) (y.toNat.testBit i))
    (hf : f false false = false) (a b : Ident) (i : Nat) :
    (Ident.mk (Vector.zipWith op a.words b.words)).toNat.testBit i =
      f (a.toNat.testBit i) (b.toNat.testBit i) := by
  rw [toNat, lowWords_zipWith]
  exact Words.testBit_toNat_zipWith hop (by simp) hf i

theorem toNat_xor (a b : Ident) : (a.xor b).toNat = a.toNat ^^^ b.toNat := by
  apply Nat.eq_of_testBit_eq
  intro i
  rw [Nat.testBit_xor]
  refine testBit_zipWith (fun x y i => ?_) rfl a b i
  rw [UInt32.toNat_xor, Nat.testBit_xor]

theorem toNat_or (a b : Ident) : (a.or b).toNat = a.toNat ||| b.toNat := by
  apply Nat.eq_of_testBit_eq
  intro i
  rw [Nat.testBit_or]
  refine testBit_zipWith (fun x y i => ?_) rfl a b i
  rw [UInt32.toNat_or, Nat.testBit_or]

theorem toNat_and (a b : Ident) : (a.and b).toNat = a.toNat &&& b.toNat := by
  apply Nat.eq_of_testBit_eq
  intro i
  rw [Nat.testBit_and]
  refine testBit_zipWith (fun x y i => ?_) rfl a b i
  rw [UInt32.toNat_and, Nat.testBit_and]

end Ident

end Ident160
