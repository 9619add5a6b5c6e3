import Ident160.Ident.Arith
import Ident160.Proofs.IdentOrder

/-!
Sums and differences in the ring of integers modulo 2^160. Every column of a sum fits its 64 bits,
as it takes in a carry of at most one and hands on no more. The complement of a number is what it
lacks to 2^160 - 1, so the complement and one more is the negative, and a difference is the sum
with the negative.
-/

namespace Ident160

namespace Words

/-! ### Columns -/

/-- A column keeps the low half of its value and hands on the high half. -/
theorem low_add_carry (total : UInt64) :
    total.toUInt32.toNat + 2 ^ 32 * (total >>> 32).toNat = total.toNat := by
  rw [UInt64.toNat_toUInt32, UInt64.toNat_shiftRight, Nat.shiftRight_eq_div_pow]
  exact Nat.mod_add_div total.toNat (2 ^ 32)

/-- The lowest column in front of the columns above it, which work with what it hands on. -/
theorem column_add_mod (total : UInt64) (n length : Nat) :
    total.toUInt32.toNat + 2 ^ 32 * ((n + (total >>> 32).toNat) % 2 ^ (32 * length)) =
      (total.toNat + 2 ^ 32 * n) % 2 ^ (32 * (length + 1)) := by
  rw [← word_add_mod, ← low_add_carry total, Nat.mul_add, Nat.add_comm (2 ^ 32 * n),
    ← Nat.add_assoc]

theorem SumColumn.toNat_total (column : SumColumn) (h : column.carry.toNat ≤ 1) :
    column.total.toNat = column.left.toNat + column.right.toNat + column.carry.toNat := by
  have hleft := column.left.toNat_lt
  have hright := column.right.toNat_lt
  simp only [total, UInt64.toNat_add, UInt32.toNat_toUInt64]
  omega

/-- Two words and a carry of one bit hand on one bit at most. -/
theorem SumColumn.carry_le (column : SumColumn) (h : column.carry.toNat ≤ 1) :
    (column.total >>> 32).toNat ≤ 1 := by
  have hleft := column.left.toNat_lt
  have hright := column.right.toNat_lt
  have htotal := column.toNat_total h
  have hhalves := low_add_carry column.total
  omega

/-! ### Sums -/

/-- The columns write the sum of both numbers and what enters the lowest column, but for the last
carry. -/
theorem toNat_sumColumns (carry : UInt64) {xs ys : List UInt32} (hlength : xs.length = ys.length)
    (hcarry : carry.toNat ≤ 1) :
    toNat ((sumColumns carry xs ys).map fun column => column.total.toUInt32) =
      (toNat xs + toNat ys + carry.toNat) % 2 ^ (32 * xs.length) := by
  induction xs generalizing carry ys with
  | nil => simp [sumColumns, toNat, Nat.mod_one]
  | cons x xs ih =>
    cases ys with
    | nil => simp at hlength
    | cons y ys =>
      have htotal := SumColumn.toNat_total ⟨x, y, carry⟩ hcarry
      have hnext := SumColumn.carry_le ⟨x, y, carry⟩ hcarry
      have hsum : x.toNat + 2 ^ 32 * toNat xs + (y.toNat + 2 ^ 32 * toNat ys) + carry.toNat =
          x.toNat + y.toNat + carry.toNat + 2 ^ 32 * (toNat xs + toNat ys) := by omega
      rw [sumColumns, List.map_cons, toNat, toNat, toNat, ih _ (by simpa using hlength) hnext,
        column_add_mod, htotal, hsum, List.length_cons]

theorem toNat_add {xs ys : List UInt32} (hlength : xs.length = ys.length) :
    toNat (add xs ys) = (toNat xs + toNat ys) % 2 ^ (32 * xs.length) :=
  toNat_sumColumns 0 hlength (Nat.zero_le 1)

/-- A number and its complement have all bits between them. -/
theorem toNat_complement (words : List UInt32) :
    toNat (words.map (~~~ ·)) + toNat words + 1 = 2 ^ (32 * words.length) := by
  induction words with
  | nil => rfl
  | cons word words ih =>
    have hword : word.toNat < 2 ^ 32 := word.toNat_lt
    have hnot : (~~~word).toNat = 2 ^ 32 - 1 - word.toNat := UInt32.toNat_not word
    rw [List.map_cons, toNat, toNat, List.length_cons, Nat.mul_succ, Nat.add_comm (32 * _),
      Nat.pow_add, ← ih, hnot]
    omega

end Words

namespace Ident

theorem toNat_add (a b : Ident) : (a.add b).toNat = (a.toNat + b.toNat) % 2 ^ 160 := by
  rw [add, toNat_ofLowWords, Words.toNat_add (by simp), length_lowWords]
  rfl

/-- The complement takes a number to what is missing to the greatest one. -/
theorem toNat_not (a : Ident) : a.not.toNat = 2 ^ 160 - 1 - a.toNat := by
  have hwords : a.not.lowWords = a.lowWords.map (~~~ ·) := by
    rw [lowWords, lowWords, not, Vector.toList_map, List.map_reverse]
  have hall := Words.toNat_complement a.lowWords
  rw [← hwords, length_lowWords] at hall
  change a.not.toNat + a.toNat + 1 = 2 ^ 160 at hall
  omega

theorem toNat_neg (a : Ident) : a.neg.toNat = (2 ^ 160 - a.toNat) % 2 ^ 160 := by
  have hlt := a.toNat_lt
  have hone : one.toNat = 1 := rfl
  have hmore : 2 ^ 160 - 1 - a.toNat + 1 = 2 ^ 160 - a.toNat := by omega
  rw [neg, toNat_add, toNat_not, hone, hmore]

theorem toNat_sub (a b : Ident) : (a.sub b).toNat = (a.toNat + 2 ^ 160 - b.toNat) % 2 ^ 160 := by
  have hlt := b.toNat_lt
  rw [sub, toNat_add, toNat_neg, Nat.add_mod_mod, ← Nat.add_sub_assoc (Nat.le_of_lt hlt)]

/-- A difference that is not negative does not wrap. -/
theorem toNat_sub_of_le {a b : Ident} (h : b.toNat ≤ a.toNat) :
    (a.sub b).toNat = a.toNat - b.toNat := by
  have hlt := a.toNat_lt
  rw [toNat_sub]
  omega

/-- Sums, negatives and differences are those of the integers modulo 2^160. The negative is worked
out as the complement and one more, a difference as the sum with the negative, and where the
subtrahend is not the greater one the difference is that of the numbers themselves. -/
theorem sums_and_differences_modular :
    (∀ a b : Ident, (a.add b).toNat = (a.toNat + b.toNat) % 2 ^ 160) ∧
    (∀ a : Ident, a.neg = a.not.add one ∧ a.neg.toNat = (2 ^ 160 - a.toNat) % 2 ^ 160) ∧
    ∀ a b : Ident, a.sub b = a.add b.neg ∧
      (a.sub b).toNat = (a.toNat + 2 ^ 160 - b.toNat) % 2 ^ 160 ∧
      (b.atMost a = true → b.toNat ≤ a.toNat ∧ (a.sub b).toNat = a.toNat - b.toNat) := by
  refine ⟨toNat_add, fun a => ⟨rfl, toNat_neg a⟩, fun a b => ⟨rfl, toNat_sub a b, ?_⟩⟩
  intro h
  have hle : b.toNat ≤ a.toNat := (atMost_iff b a).mp h
  exact ⟨hle, toNat_sub_of_le hle⟩

/-- The borrow goes through three words of zeros. -/
theorem difference_borrows_through_zeros :
    atMost one ⟨#v[0, 1, 0, 0, 0]⟩ = true ∧
      (sub ⟨#v[0, 1, 0, 0, 0]⟩ one).toNat = 2 ^ 96 - 1 := by
  have hle : atMost one ⟨#v[0, 1, 0, 0, 0]⟩ = true := by decide
  have hsub := (sums_and_differences_modular.2.2 ⟨#v[0, 1, 0, 0, 0]⟩ one).2.2 hle
  exact ⟨hle, hsub.2⟩

end Ident

end Ident160
