import Ident160.Proofs.Sums
import Mathlib.Tactic.Ring

/-!
Products modulo 2^160. A row multiplies one number by a single word and adds it to the words that
stand in the result. The lowest of them is final then, and the next row works one word higher up,
so each row is cut where the result ends. No column of a row leaves its 64 bits, and the fullest
one just fits.
-/

namespace Ident160

namespace Words

/-! ### Rows -/

/-- The high half of a column is a word. -/
theorem carry_lt (total : UInt64) : (total >>> 32).toNat < 2 ^ 32 := by
  have htotal := total.toNat_lt
  have hhalves := low_add_carry total
  omega

theorem ProductColumn.product_le (column : ProductColumn) :
    column.left.toNat * column.right.toNat ≤ (2 ^ 32 - 1) * (2 ^ 32 - 1) :=
  Nat.mul_le_mul (Nat.le_pred_of_lt column.left.toNat_lt) (Nat.le_pred_of_lt column.right.toNat_lt)

theorem ProductColumn.toNat_total (column : ProductColumn) (h : column.carry.toNat < 2 ^ 32) :
    column.total.toNat =
      column.left.toNat * column.right.toNat + column.standing.toNat + column.carry.toNat := by
  have hstanding := column.standing.toNat_lt
  have hproduct := column.product_le
  simp only [total, UInt64.toNat_add, UInt64.toNat_mul, UInt32.toNat_toUInt64]
  omega

/-- A row adds a multiple of `xs` and what enters its lowest column to the words that stand in the
result, and ends where the result ends. -/
theorem toNat_rowColumns (y : UInt32) (carry : UInt64) {xs words : List UInt32}
    (hlength : words.length ≤ xs.length) (hcarry : carry.toNat < 2 ^ 32) :
    toNat ((rowColumns y carry xs words).map fun column => column.total.toUInt32) =
      (toNat words + y.toNat * toNat xs + carry.toNat) % 2 ^ (32 * words.length) := by
  induction words generalizing carry xs with
  | nil => cases xs <;> simp [rowColumns, toNat, Nat.mod_one]
  | cons word words ih =>
    cases xs with
    | nil => simp at hlength
    | cons x xs =>
      have htotal := ProductColumn.toNat_total ⟨x, y, word, carry⟩ hcarry
      have hsum : word.toNat + 2 ^ 32 * toNat words + y.toNat * (x.toNat + 2 ^ 32 * toNat xs) +
          carry.toNat = x.toNat * y.toNat + word.toNat + carry.toNat +
            2 ^ 32 * (toNat words + y.toNat * toNat xs) := by ring
      rw [rowColumns, List.map_cons, toNat, toNat, toNat, ih _ (by simpa using hlength)
        (carry_lt _), column_add_mod, htotal, hsum, List.length_cons]

theorem toNat_addRow (y : UInt32) {xs words : List UInt32} (hlength : words.length ≤ xs.length) :
    toNat (addRow y xs words) =
      (toNat words + y.toNat * toNat xs) % 2 ^ (32 * words.length) :=
  toNat_rowColumns y 0 hlength (by decide)

/-- The rows add the whole product to what stands in the result. After a row its lowest word is
final, and the rest stands for the rows that follow. -/
theorem toNat_addRows {ys xs words : List UInt32} (hlength : words.length ≤ xs.length) :
    toNat (addRows ys xs words) =
      (toNat words + toNat ys * toNat xs) % 2 ^ (32 * words.length) := by
  induction ys generalizing words with
  | nil =>
    rw [addRows, toNat, Nat.zero_mul, Nat.add_zero, Nat.mod_eq_of_lt (toNat_lt words)]
  | cons y ys ih =>
    have hrow := toNat_addRow y hlength
    have hrowLength := length_addRow y xs words hlength
    unfold addRows
    split
    · next heq =>
      -- A result without words has room for no number but 0.
      rw [heq, List.length_nil] at hrowLength
      rw [← hrowLength, Nat.mul_zero, Nat.pow_zero, Nat.mod_one, toNat]
    · next word above heq =>
      -- `word` is final, and the rows that follow add to `above`.
      rw [heq, List.length_cons] at hrowLength
      rw [heq, toNat] at hrow
      have hsum : toNat words + (y.toNat + 2 ^ 32 * toNat ys) * toNat xs =
          toNat words + y.toNat * toNat xs + 2 ^ 32 * (toNat ys * toNat xs) := by ring
      rw [toNat, ih (by omega), ← word_add_mod, hrowLength, Nat.mul_add, ← Nat.add_assoc, hrow,
        Nat.mod_add_mod, toNat, hsum]

theorem toNat_mul (xs ys : List UInt32) :
    toNat (mul xs ys) = toNat xs * toNat ys % 2 ^ (32 * xs.length) := by
  rw [mul, toNat_addRows (by simp), toNat_replicate_zero, List.length_replicate, Nat.zero_add,
    Nat.mul_comm]

end Words

namespace Ident

/-- The rows give the product of any two identifiers, also where an operand is zero. -/
theorem toNat_rows (a b : Ident) :
    Words.toNat (Words.mul a.lowWords b.lowWords) = a.toNat * b.toNat % 2 ^ 160 := by
  rw [Words.toNat_mul, length_lowWords]
  rfl

theorem toNat_mul (a b : Ident) : (a.mul b).toNat = a.toNat * b.toNat % 2 ^ 160 := by
  rw [mul]
  split
  · next hzero =>
    rw [Bool.or_eq_true, isZero_iff, isZero_iff, ← Nat.mul_eq_zero] at hzero
    rw [hzero]
    rfl
  · rw [toNat_ofLowWords, toNat_rows]

/-- Products are those of the integers modulo 2^160, and the shortcut for an operand that is zero
has the same words as the rows. -/
theorem products_modular (a b : Ident) :
    (a.mul b).toNat = a.toNat * b.toNat % 2 ^ 160 ∧
      (a.mul b).lowWords = Words.mul a.lowWords b.lowWords := by
  have hlength : (Words.mul a.lowWords b.lowWords).length = 5 := by
    rw [Words.length_mul, length_lowWords]
  have hrows : a.mul b = ofLowWords (Words.mul a.lowWords b.lowWords) hlength := by
    apply toNat_injective
    rw [toNat_mul, toNat_ofLowWords, toNat_rows]
  exact ⟨toNat_mul a b, by rw [hrows, lowWords_ofLowWords]⟩

end Ident

end Ident160
