import Ident160.Digit

/-!
Arithmetic on numbers written as 32-bit words, least significant word first. Sums and products
are worked out column by column in 64-bit arithmetic; each operation keeps the list of its
columns, so that the size of every intermediate value can be stated. `toNat` is the number that
a list of words denotes.
-/

namespace Ident160.Words

/-- The number written by `words`, least significant word first. -/
def toNat : List UInt32 → Nat
  | [] => 0
  | word :: words => word.toNat + 2 ^ 32 * toNat words

theorem toNat_lt (words : List UInt32) : toNat words < 2 ^ (32 * words.length) := by
  induction words with
  | nil => simp [toNat]
  | cons word words ih =>
    have hword : word.toNat < 2 ^ 32 := word.toNat_lt
    rw [toNat, List.length_cons, Nat.mul_add, Nat.pow_add, Nat.mul_comm (2 ^ (32 * _))]
    have hstep : 2 ^ 32 * toNat words + 2 ^ 32 ≤ 2 ^ 32 * 2 ^ (32 * words.length) := by
      rw [← Nat.mul_succ]
      exact Nat.mul_le_mul_left _ ih
    omega

theorem toNat_append (low high : List UInt32) :
    toNat (low ++ high) = toNat low + 2 ^ (32 * low.length) * toNat high := by
  induction low with
  | nil => simp [toNat]
  | cons word low ih =>
    rw [List.cons_append, toNat, toNat, ih, List.length_cons, Nat.mul_add 32, Nat.mul_add,
      Nat.pow_add, Nat.mul_comm (2 ^ (32 * low.length)) (2 ^ (32 * 1)), Nat.mul_assoc,
      Nat.add_assoc]

/-- A number that starts with a word is cut to a length by cutting what is above the word. -/
theorem word_add_mod (word : UInt32) (n length : Nat) :
    (word.toNat + 2 ^ 32 * n) % 2 ^ (32 * (length + 1)) =
      word.toNat + 2 ^ 32 * (n % 2 ^ (32 * length)) := by
  have hword : word.toNat < 2 ^ 32 := word.toNat_lt
  have hlow : (word.toNat + 2 ^ 32 * n) % 2 ^ 32 = word.toNat := by omega
  have hhigh : (word.toNat + 2 ^ 32 * n) / 2 ^ 32 = n := by omega
  rw [Nat.mul_succ, Nat.add_comm (32 * length), Nat.pow_add, Nat.mod_mul, hlow, hhigh]

theorem toNat_take (k : Nat) (words : List UInt32) :
    toNat (words.take k) = toNat words % 2 ^ (32 * k) := by
  induction words generalizing k with
  | nil => simp [toNat]
  | cons word words ih =>
    cases k with
    | zero => simp [toNat, Nat.mod_one]
    | succ k => rw [List.take_succ_cons, toNat, toNat, ih, word_add_mod]

theorem toNat_drop (k : Nat) (words : List UInt32) :
    toNat (words.drop k) = toNat words / 2 ^ (32 * k) := by
  induction words generalizing k with
  | nil => simp [toNat]
  | cons word words ih =>
    cases k with
    | zero => simp
    | succ k =>
      have hword : word.toNat < 2 ^ 32 := word.toNat_lt
      have hhigh : (word.toNat + 2 ^ 32 * toNat words) / 2 ^ 32 = toNat words := by omega
      rw [List.drop_succ_cons, ih, toNat, Nat.mul_succ, Nat.add_comm (32 * k), Nat.pow_add,
        ← Nat.div_div_eq_div_mul, hhigh]

theorem toNat_replicate_zero (k : Nat) : toNat (List.replicate k 0) = 0 := by
  induction k with
  | zero => rfl
  | succ k ih => rw [List.replicate_succ, toNat, ih]; rfl

/-! ### Sums -/

/-- One column of a sum: a word of each operand and what the lower columns carry in. -/
structure SumColumn where
  left : UInt32
  right : UInt32
  carry : UInt64

/-- The sum of a column. Its low half is the result's word, its high half the next carry. -/
def SumColumn.total (column : SumColumn) : UInt64 :=
  column.left.toUInt64 + column.right.toUInt64 + column.carry

/-- The columns of a sum, lowest first, with `carry` entering the lowest. -/
def sumColumns : UInt64 → List UInt32 → List UInt32 → List SumColumn
  | carry, x :: xs, y :: ys =>
    let column : SumColumn := ⟨x, y, carry⟩
    column :: sumColumns (column.total >>> 32) xs ys
  | _, _, _ => []

/-- The sum of two numbers of the same length, without the last carry. -/
def add (xs ys : List UInt32) : List UInt32 :=
  (sumColumns 0 xs ys).map fun column => column.total.toUInt32

theorem length_sumColumns (carry : UInt64) (xs ys : List UInt32) (h : xs.length = ys.length) :
    (sumColumns carry xs ys).length = xs.length := by
  induction xs generalizing carry ys with
  | nil => simp [sumColumns]
  | cons x xs ih =>
    cases ys with
    | nil => simp at h
    | cons y ys =>
      simp only [List.length_cons, Nat.add_right_cancel_iff] at h
      simp only [sumColumns, List.length_cons, ih _ ys h]

theorem length_add (xs ys : List UInt32) (h : xs.length = ys.length) :
    (add xs ys).length = xs.length := by
  simp only [add, List.length_map, length_sumColumns 0 xs ys h]

/-! ### Products -/

/-- One column of a partial product: two words to multiply, the word already standing at this
place of the result, and what the lower columns carry in. -/
structure ProductColumn where
  left : UInt32
  right : UInt32
  standing : UInt32
  carry : UInt64

/-- The value of a column. Its low half is the result's word, its high half the next carry. -/
def ProductColumn.total (column : ProductColumn) : UInt64 :=
  column.left.toUInt64 * column.right.toUInt64 + column.standing.toUInt64 + column.carry

/-- The columns of one row: `xs` times the single word `y`, added to the words that stand in the
result. The row ends with the result, and its last carry is dropped. -/
def rowColumns (y : UInt32) : UInt64 → List UInt32 → List UInt32 → List ProductColumn
  | carry, x :: xs, word :: words =>
    let column : ProductColumn := ⟨x, y, word, carry⟩
    column :: rowColumns y (column.total >>> 32) xs words
  | _, _, _ => []

def addRow (y : UInt32) (xs words : List UInt32) : List UInt32 :=
  (rowColumns y 0 xs words).map fun column => column.total.toUInt32

/-- Adds `xs` times `ys` to the words that stand in the result, one row for each word of `ys`.
After a row the lowest word is final, and the next row works on the words above it. -/
def addRows : List UInt32 → List UInt32 → List UInt32 → List UInt32
  | [], _, words => words
  | y :: ys, xs, words =>
    match addRow y xs words with
    | [] => []
    | word :: above => word :: addRows ys xs above

/-- All columns that `addRows` works out, row by row. -/
def productColumns : List UInt32 → List UInt32 → List UInt32 → List ProductColumn
  | [], _, _ => []
  | y :: ys, xs, words =>
    rowColumns y 0 xs words ++ productColumns ys xs ((addRow y xs words).drop 1)

/-- The product of two numbers, cut to the length of the first. -/
def mul (xs ys : List UInt32) : List UInt32 :=
  addRows ys xs (List.replicate xs.length 0)

theorem length_rowColumns (y : UInt32) (carry : UInt64) (xs words : List UInt32)
    (h : words.length ≤ xs.length) : (rowColumns y carry xs words).length = words.length := by
  induction words generalizing carry xs with
  | nil => cases xs <;> simp [rowColumns]
  | cons word words ih =>
    cases xs with
    | nil => simp at h
    | cons x xs =>
      simp only [List.length_cons, Nat.add_le_add_iff_right] at h
      simp only [rowColumns, List.length_cons, ih _ xs h]

theorem length_addRow (y : UInt32) (xs words : List UInt32) (h : words.length ≤ xs.length) :
    (addRow y xs words).length = words.length := by
  simp only [addRow, List.length_map, length_rowColumns y 0 xs words h]

theorem length_addRows (ys xs words : List UInt32) (h : words.length ≤ xs.length) :
    (addRows ys xs words).length = words.length := by
  induction ys generalizing words with
  | nil => rfl
  | cons y ys ih =>
    have hrow := length_addRow y xs words h
    unfold addRows
    split
    · next heq => rw [heq] at hrow; exact hrow
    · next word above heq =>
      rw [heq, List.length_cons] at hrow
      rw [List.length_cons, ih above (by omega), hrow]

theorem length_mul (xs ys : List UInt32) : (mul xs ys).length = xs.length := by
  simp [mul, length_addRows]

/-! ### Shifts -/

/-- The number of whole words that a shift by `places` moves over. -/
def wordGap (places : UInt32) : Nat := (places / 32).toNat

/-- The number of places that a shift by `places` moves beyond whole words. -/
def bitGap (places : UInt32) : UInt32 := places % 32

/-- How far a word is shifted the other way to leave the bits that move into its neighbour. -/
def spillPlaces (bits : UInt32) : UInt32 := 32 - bits

/-- The bits of `below` that a shift up by `bits` places moves into the word above it. A shift by
whole words moves none, and would need a shift by 32 places to say so. -/
def spillUp (bits below : UInt32) : UInt32 :=
  if bits = 0 then 0 else below >>> spillPlaces bits

/-- The bits of `above` that a shift down by `bits` places moves into the word below it. -/
def spillDown (bits above : UInt32) : UInt32 :=
  if bits = 0 then 0 else above <<< spillPlaces bits

/-- Shifts every word up by `bits` < 32 places; `below` stands under the lowest word. -/
def shiftUp (bits : UInt32) : UInt32 → List UInt32 → List UInt32
  | _, [] => []
  | below, word :: words => (word <<< bits ||| spillUp bits below) :: shiftUp bits word words

/-- Shifts every word down by `bits` < 32 places; nothing stands over the highest word. -/
def shiftDown (bits : UInt32) : List UInt32 → List UInt32
  | [] => []
  | word :: words => (word >>> bits ||| spillDown bits (words.headD 0)) :: shiftDown bits words

theorem length_shiftUp (bits below : UInt32) (words : List UInt32) :
    (shiftUp bits below words).length = words.length := by
  induction words generalizing below with
  | nil => rfl
  | cons word words ih => simp only [shiftUp, List.length_cons, ih]

theorem length_shiftDown (bits : UInt32) (words : List UInt32) :
    (shiftDown bits words).length = words.length := by
  induction words with
  | nil => rfl
  | cons word words ih => simp only [shiftDown, List.length_cons, ih]

/-- The number moved up by `gap` whole words and `bits` places, cut to its own length. -/
def shiftLeft (gap : Nat) (bits : UInt32) (words : List UInt32) : List UInt32 :=
  (List.replicate gap 0 ++ shiftUp bits 0 words).take words.length

/-- The number moved down by `gap` whole words and `bits` places, filled with zeros from above. -/
def shiftRight (gap : Nat) (bits : UInt32) (words : List UInt32) : List UInt32 :=
  (shiftDown bits (words.drop gap) ++ List.replicate gap 0).take words.length

theorem length_shiftLeft (gap : Nat) (bits : UInt32) (words : List UInt32) :
    (shiftLeft gap bits words).length = words.length := by
  simp only [shiftLeft, List.length_take, List.length_append, List.length_replicate, length_shiftUp]
  omega

theorem length_shiftRight (gap : Nat) (bits : UInt32) (words : List UInt32) :
    (shiftRight gap bits words).length = words.length := by
  simp only [shiftRight, List.length_take, List.length_append, List.length_replicate,
    length_shiftDown, List.length_drop]
  omega

/-! ### Order -/

/-- Compares two numbers of the same length, most significant word first. -/
def compareHigh : List UInt32 → List UInt32 → Ordering
  | x :: xs, y :: ys => (compare x y).then (compareHigh xs ys)
  | _, _ => .eq

end Ident160.Words
