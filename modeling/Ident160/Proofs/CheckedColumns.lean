import Ident160.Proofs.CheckedSteps
import Ident160.Proofs.Products

/-!
Sums and products without overrun. A column of a sum stays below 2^33 and hands on at most one; a
column of a product takes in less than 2^32, and with that its value just fits 64 bits. So the
columns that are worked out with checks are the columns that wrap. The rows of a product are worked
out in place here, with an index for each of the words that a column joins, and come to the words
that the rows of the operation write one behind the other.
-/

namespace Ident160

namespace Words

/-! ### Columns -/

theorem mem_sumColumns_carry {carry : UInt64} (hcarry : carry.toNat ≤ 1) {xs ys : List UInt32}
    {column : SumColumn} (h : column ∈ sumColumns carry xs ys) : column.carry.toNat ≤ 1 := by
  induction xs generalizing carry ys with
  | nil => simp [sumColumns] at h
  | cons x xs ih =>
    cases ys with
    | nil => simp [sumColumns] at h
    | cons y ys =>
      rw [sumColumns, List.mem_cons] at h
      rcases h with rfl | h
      · exact hcarry
      · exact ih (SumColumn.carry_le ⟨x, y, carry⟩ hcarry) h

/-- With a carry of one bit, a column needs one bit more than a word. -/
theorem SumColumn.total_lt (column : SumColumn) (h : column.carry.toNat ≤ 1) :
    column.left.toNat + column.right.toNat + column.carry.toNat < 2 ^ 33 := by
  have hleft := column.left.toNat_lt
  have hright := column.right.toNat_lt
  omega

theorem mem_rowColumns_carry {y : UInt32} {carry : UInt64} (hcarry : carry.toNat < 2 ^ 32)
    {xs words : List UInt32} {column : ProductColumn} (h : column ∈ rowColumns y carry xs words) :
    column.carry.toNat < 2 ^ 32 := by
  induction xs generalizing carry words with
  | nil => simp [rowColumns] at h
  | cons x xs ih =>
    cases words with
    | nil => simp [rowColumns] at h
    | cons word words =>
      rw [rowColumns, List.mem_cons] at h
      rcases h with rfl | h
      · exact hcarry
      · exact ih (carry_lt _) h

/-- A row that goes on at some place starts with the column at this place. -/
theorem rowColumns_drop (y : UInt32) (carry : UInt64) {xs words : List UInt32} {i k : Nat}
    (hi : i < xs.length) (hk : k < words.length) :
    rowColumns y carry (xs.drop i) (words.drop k) =
      ⟨xs[i], y, words[k], carry⟩ ::
        rowColumns y (ProductColumn.total ⟨xs[i], y, words[k], carry⟩ >>> 32) (xs.drop (i + 1))
          (words.drop (k + 1)) := by
  rw [List.drop_eq_getElem_cons hi, List.drop_eq_getElem_cons hk, rowColumns]

/-- No column of a product is handed more than a word. -/
theorem mem_productColumns_carry {ys xs words : List UInt32} {column : ProductColumn}
    (h : column ∈ productColumns ys xs words) : column.carry.toNat < 2 ^ 32 := by
  induction ys generalizing words with
  | nil => simp [productColumns] at h
  | cons y ys ih =>
    rw [productColumns, List.mem_append] at h
    rcases h with h | h
    · exact mem_rowColumns_carry (by decide) h
    · exact ih h

/-- The greatest product of two words leaves room for two more words, and no more. -/
theorem ProductColumn.total_le (column : ProductColumn) (h : column.carry.toNat < 2 ^ 32) :
    column.left.toNat * column.right.toNat + column.standing.toNat + column.carry.toNat ≤
      2 ^ 64 - 1 := by
  have hproduct := column.product_le
  have hstanding := column.standing.toNat_lt
  omega

end Words

open Words

namespace Checked

/-! ### Sums -/

def sumTotal (column : SumColumn) : Checked UInt64 := do
  sum (← sum column.left.toUInt64 column.right.toUInt64) column.carry

theorem sumTotal_eq {column : SumColumn} (h : column.carry.toNat ≤ 1) :
    sumTotal column = .ok column.total := by
  have hleft := column.left.toNat_lt
  have hright := column.right.toNat_lt
  have hwords : (column.left.toUInt64 + column.right.toUInt64).toNat =
      column.left.toNat + column.right.toNat := by
    rw [UInt64.toNat_add, UInt32.toNat_toUInt64, UInt32.toNat_toUInt64]
    omega
  rw [sumTotal, sum_eq (by simp only [UInt32.toNat_toUInt64]; omega), ok_bind,
    sum_eq (by rw [hwords]; omega)]
  rfl

def sumWords : UInt64 → List UInt32 → List UInt32 → Checked (List UInt32)
  | carry, x :: xs, y :: ys => do
    let total ← sumTotal ⟨x, y, carry⟩
    let words ← sumWords (total >>> 32) xs ys
    return total.toUInt32 :: words
  | _, _, _ => return []

theorem sumWords_eq {carry : UInt64} (hcarry : carry.toNat ≤ 1) (xs ys : List UInt32) :
    sumWords carry xs ys =
      .ok ((sumColumns carry xs ys).map fun column => column.total.toUInt32) := by
  induction xs generalizing carry ys with
  | nil => rfl
  | cons x xs ih =>
    cases ys with
    | nil => rfl
    | cons y ys =>
      have hnext := SumColumn.carry_le ⟨x, y, carry⟩ hcarry
      rw [sumWords, sumTotal_eq hcarry, ok_bind, ih hnext, ok_bind, sumColumns, List.map_cons]
      rfl

def add (a b : Ident) : Checked Ident := do
  ofLowWords (← sumWords 0 a.lowWords b.lowWords)

def neg (a : Ident) : Checked Ident := add a.not Ident.one

def sub (a b : Ident) : Checked Ident := do
  add a (← neg b)

theorem add_eq (a b : Ident) : add a b = .ok (a.add b) := by
  have hlength : (Words.add a.lowWords b.lowWords).length = 5 := by
    rw [length_add _ _ (by simp), Ident.length_lowWords]
  rw [add, sumWords_eq (by decide), ok_bind]
  exact ofLowWords_eq hlength

theorem neg_eq (a : Ident) : neg a = .ok a.neg := add_eq a.not Ident.one

theorem sub_eq (a b : Ident) : sub a b = .ok (a.sub b) := by
  rw [sub, neg_eq, ok_bind, add_eq]
  rfl

/-! ### Rows of products -/

def productTotal (column : ProductColumn) : Checked UInt64 := do
  let words ← product column.left.toUInt64 column.right.toUInt64
  sum (← sum words column.standing.toUInt64) column.carry

theorem productTotal_eq {column : ProductColumn} (h : column.carry.toNat < 2 ^ 32) :
    productTotal column = .ok column.total := by
  have hproduct := column.product_le
  have hstanding := column.standing.toNat_lt
  have hwords : (column.left.toUInt64 * column.right.toUInt64).toNat =
      column.left.toNat * column.right.toNat := by
    rw [UInt64.toNat_mul, UInt32.toNat_toUInt64, UInt32.toNat_toUInt64]
    exact Nat.mod_eq_of_lt (by omega)
  have hstood : (column.left.toUInt64 * column.right.toUInt64 + column.standing.toUInt64).toNat =
      column.left.toNat * column.right.toNat + column.standing.toNat := by
    rw [UInt64.toNat_add, hwords, UInt32.toNat_toUInt64]
    omega
  rw [productTotal, product_eq (by simp only [UInt32.toNat_toUInt64]; omega), ok_bind,
    sum_eq (by rw [hwords, UInt32.toNat_toUInt64]; omega), ok_bind,
    sum_eq (by rw [hstood]; omega)]
  rfl

/-- One column of the row for the word at `j` of the second operand: the word at `i` of the first
joins the word that stands `offset` places further up in the result. -/
def productStep (a b : Ident) (j offset : Nat) (state : Ident × UInt64) (i : Nat) :
    Checked (Ident × UInt64) := do
  let (result, carry) := state
  let place ← difference i offset
  let left ← wordAt a i
  let right ← wordAt b j
  let standing ← wordAt result place
  let total ← productTotal ⟨left, right, standing, carry⟩
  let result ← setWord result place total.toUInt32
  return (result, total >>> 32)

/-- A row of the product, from the lowest word of the first operand up to the one that joins the
highest word of the result. -/
def productRow (a b result : Ident) (j offset : Nat) : Checked Ident := do
  let (result, _) ←
    (List.range' offset (5 - offset)).reverse.foldlM (productStep a b j offset) (result, 0)
  return result

def mul (a b : Ident) : Checked Ident :=
  if a.isZero || b.isZero then
    return Ident.zero
  else
    (List.range 5).reverse.zipIdx.foldlM
      (fun result (j, offset) => productRow a b result j offset) Ident.zero

theorem productStep_eq (a b result : Ident) {carry : UInt64} {i j offset : Nat} (hi : i < 5)
    (hj : j < 5) (hoffset : offset ≤ i) (hcarry : carry.toNat < 2 ^ 32) :
    let column : ProductColumn := ⟨a.words[i], b.words[j], result.words[i - offset], carry⟩
    productStep a b j offset (result, carry) i =
      .ok (⟨result.words.set (i - offset) column.total.toUInt32⟩, column.total >>> 32) := by
  intro column
  have hplace : i - offset < 5 := by omega
  have htotal : productTotal ⟨a.words[i], b.words[j], result.words[i - offset], carry⟩ =
      .ok column.total := productTotal_eq hcarry
  simp only [productStep, difference_eq hoffset, wordAt_eq a hi, wordAt_eq b hj,
    wordAt_eq result hplace, ok_bind, htotal, setWord_eq result hplace]
  rfl

/-- A word that is set parts the words below it from those above. -/
theorem take_drop_set {words : List UInt32} {k : Nat} (h : k < words.length) (word : UInt32) :
    (words.set k word).take (k + 1) = words.take k ++ [word] ∧
      (words.set k word).drop (k + 1) = words.drop (k + 1) := by
  have hlength : (words.take k).length = k := List.length_take_of_le (Nat.le_of_lt h)
  constructor
  · rw [List.take_set, List.take_succ_eq_append_getElem h,
      List.set_append_right k word (Nat.le_of_eq hlength), hlength, Nat.sub_self]
    rfl
  · exact List.drop_set_of_lt (Nat.lt_succ_self k)

/-- With `count` places left, the words of the result below them are final, and the row goes on
with the words from there. -/
theorem productSteps_eq (a b : Ident) {j offset : Nat} (hj : j < 5) {count : Nat}
    (hcount : offset + count ≤ 5) (result : Ident) {carry : UInt64}
    (hcarry : carry.toNat < 2 ^ 32) :
    ∃ (last : Ident) (out : UInt64),
      (List.range' offset count).reverse.foldlM (productStep a b j offset) (result, carry) =
        .ok (last, out) ∧
      last.lowWords = result.lowWords.take (5 - count) ++
        (rowColumns b.words[j] carry (a.lowWords.drop (5 - (offset + count)))
          (result.lowWords.drop (5 - count))).map fun column => column.total.toUInt32 := by
  induction count generalizing result carry with
  | zero =>
    refine ⟨result, carry, rfl, ?_⟩
    have hall : result.lowWords.drop (5 - 0) = [] := List.drop_eq_nil_of_le (by simp)
    have hnone : ∀ xs, rowColumns b.words[j] carry xs [] = [] := fun xs => by cases xs <;> rfl
    rw [hall, hnone, List.map_nil, List.append_nil, List.take_of_length_le (by simp)]
  | succ count ih =>
    -- The next column joins the word at `offset + count` with the one at `count` in the result.
    have hi : offset + count < 5 := hcount
    have hplace : offset + count - offset = count := Nat.add_sub_cancel_left offset count
    have hstep := productStep_eq a b result hi hj (Nat.le_add_right offset count) hcarry
    simp only [hplace] at hstep
    obtain ⟨last, out, hrun, hlast⟩ := ih (by omega) _ (carry_lt _)
    refine ⟨last, out, ?_, ?_⟩
    · rw [List.range'_1_concat, List.reverse_append, List.reverse_singleton,
        List.singleton_append, List.foldlM_cons, hstep, ok_bind]
      exact hrun
    · have hleft : 4 - (offset + count) < a.lowWords.length := by rw [Ident.length_lowWords]; omega
      have hright : 4 - count < result.lowWords.length := by rw [Ident.length_lowWords]; omega
      have hplace : count < 5 := by omega
      have hbelow : 5 - count = 4 - count + 1 := by omega
      have hbelow' : 5 - (offset + count) = 4 - (offset + count) + 1 := by omega
      obtain ⟨htake, hdrop⟩ := take_drop_set hright
        (ProductColumn.total ⟨a.words[offset + count], b.words[j], result.words[count],
          carry⟩).toUInt32
      rw [hlast, Ident.lowWords_set result hplace, hbelow, hbelow', htake, hdrop, ← Nat.add_assoc,
        Nat.add_sub_add_right 4 1 (offset + count), Nat.add_sub_add_right 4 1 count,
        rowColumns_drop _ _ hleft hright, Ident.getElem_lowWords_sub a hi,
        Ident.getElem_lowWords_sub result hplace, List.map_cons, List.append_assoc]
      rfl

/-- A row leaves the words below its place as they are and adds to those from there on. -/
theorem productRow_eq (a b result : Ident) {j offset : Nat} (hj : j < 5)
    (hoffset : j + offset = 4) :
    ∃ last : Ident, productRow a b result j offset = .ok last ∧
      last.lowWords = result.lowWords.take offset ++
        addRow b.words[j] a.lowWords (result.lowWords.drop offset) := by
  have hcount : offset + (5 - offset) = 5 := by omega
  have hfront : 5 - (5 - offset) = offset := by omega
  have hzero : (0 : UInt64).toNat < 2 ^ 32 := by decide
  obtain ⟨last, out, hrun, hlast⟩ :=
    productSteps_eq a b hj (Nat.le_of_eq hcount) result hzero
  rw [hcount, Nat.sub_self, List.drop_zero, hfront] at hlast
  refine ⟨last, ?_, hlast⟩
  rw [productRow, hrun]
  rfl

/-- The rows from the one at `offset` onwards leave the words below that place, which are final. -/
theorem productRows_eq (a b : Ident) {offset count : Nat} (h : offset + count = 5)
    (result : Ident) :
    ∃ last : Ident,
      (List.range' offset count).foldlM
        (fun result offset => productRow a b result (4 - offset) offset) result = .ok last ∧
      last.lowWords = result.lowWords.take offset ++
        addRows (b.lowWords.drop offset) a.lowWords (result.lowWords.drop offset) := by
  induction count generalizing offset result with
  | zero =>
    refine ⟨result, rfl, ?_⟩
    have hnone : b.lowWords.drop offset = [] := List.drop_eq_nil_of_le (by simp; omega)
    rw [hnone, addRows, List.take_append_drop]
  | succ count ih =>
    have hoffset : offset < 5 := by omega
    have hwords : (result.lowWords.take offset).length = offset :=
      List.length_take_of_le (by rw [Ident.length_lowWords]; omega)
    have hb : offset < b.lowWords.length := by rw [Ident.length_lowWords]; exact hoffset
    have hj : 4 - offset < 5 := by omega
    have hcolumn : 4 - offset + offset = 4 := Nat.sub_add_cancel (Nat.le_of_lt_succ hoffset)
    obtain ⟨next, hrow, hnext⟩ := productRow_eq a b result hj hcolumn
    obtain ⟨last, hrows, hlast⟩ := ih (show offset + 1 + count = 5 by omega) next
    have hpos :
        0 < (addRow b.words[4 - offset] a.lowWords (result.lowWords.drop offset)).length := by
      rw [length_addRow _ _ _ (by simp), List.length_drop, Ident.length_lowWords]
      omega
    obtain ⟨word, above, hcons⟩ := List.exists_cons_of_length_pos hpos
    rw [hcons] at hnext
    have htake : next.lowWords.take (offset + 1) = result.lowWords.take offset ++ [word] := by
      rw [hnext, List.take_append, hwords, List.take_of_length_le (by omega),
        Nat.add_sub_cancel_left]
      rfl
    have hdrop : next.lowWords.drop (offset + 1) = above := by
      rw [hnext, List.drop_append, hwords, List.drop_eq_nil_of_le (by omega),
        Nat.add_sub_cancel_left]
      rfl
    refine ⟨last, ?_, ?_⟩
    · rw [List.range'_succ, List.foldlM_cons, hrow, ok_bind]
      exact hrows
    · rw [hlast, htake, hdrop, List.drop_eq_getElem_cons hb, Ident.getElem_lowWords, addRows, hcons,
        List.append_assoc]
      rfl

theorem mul_eq (a b : Ident) : mul a b = .ok (a.mul b) := by
  rw [mul, Ident.mul]
  split
  · rfl
  · have horder : (List.range 5).reverse.zipIdx =
        (List.range' 0 5).map fun offset => (4 - offset, offset) := rfl
    obtain ⟨last, hrows, hlast⟩ := productRows_eq a b (Nat.zero_add 5) Ident.zero
    have hwords : last.lowWords = Words.mul a.lowWords b.lowWords := by
      rw [hlast, Words.mul, Ident.length_lowWords]
      rfl
    rw [horder, List.foldlM_map, hrows]
    exact congrArg Except.ok (Ident.lowWords_injective (by rw [hwords, Ident.lowWords_ofLowWords]))

end Checked

end Ident160
