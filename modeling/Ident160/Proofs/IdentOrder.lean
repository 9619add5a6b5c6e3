import Ident160.Proofs.IdentReading

/-!
One number in four notations. The words, the bytes and the digits of an identifier all write its
number in a fixed count of places, most significant first, so comparing them place by place from
the front compares the numbers. The order of identifiers is that of any of these notations.
-/

namespace Ident160

/-! ### Places -/

/-- Sequences compare like their images if their members do. -/
theorem compare_map {α β : Type} [Ord α] [Ord β] {f : α → β} {xs ys : List α}
    (h : ∀ x ∈ xs, ∀ y ∈ ys, compare (f x) (f y) = compare x y) :
    compare (xs.map f) (ys.map f) = compare xs ys := by
  induction xs generalizing ys with
  | nil => cases ys <;> rfl
  | cons x xs ih =>
    cases ys with
    | nil => rfl
    | cons y ys =>
      have hhead : compare (f x) (f y) = compare x y := h x (by simp) y (by simp)
      have htail : compare (xs.map f) (ys.map f) = compare xs ys :=
        ih fun x' hx y' hy => h x' (by simp [hx]) y' (by simp [hy])
      rw [List.map_cons, List.map_cons, List.compare_cons_cons, List.compare_cons_cons, hhead,
        htail]

namespace Digit

/-- A number that is ahead stays ahead, as digits put behind it cannot make up for a whole unit. -/
theorem extended_lt_extended {radix m n : Nat} {xs ys : List Nat}
    (hlength : xs.length = ys.length) (hxs : ∀ d ∈ xs, d < radix) (h : m < n) :
    extended radix m xs < extended radix n ys := by
  induction xs generalizing m n ys with
  | nil =>
    cases ys with
    | nil => exact h
    | cons y ys => simp at hlength
  | cons x xs ih =>
    cases ys with
    | nil => simp at hlength
    | cons y ys =>
      obtain ⟨hx, hxs⟩ := List.forall_mem_cons.mp hxs
      have hunit : (m + 1) * radix ≤ n * radix := Nat.mul_le_mul_right radix h
      rw [Nat.succ_mul] at hunit
      rw [extended_cons, extended_cons]
      exact ih (by simpa using hlength) hxs (by omega)

/-- The first place at which two numbers differ decides between them. -/
theorem compare_extended {radix : Nat} {xs ys : List Nat} (hlength : xs.length = ys.length)
    (hxs : ∀ d ∈ xs, d < radix) (hys : ∀ d ∈ ys, d < radix) (n : Nat) :
    compare (extended radix n xs) (extended radix n ys) = compare xs ys := by
  induction xs generalizing n ys with
  | nil =>
    cases ys with
    | nil => exact Nat.compare_eq_eq.mpr rfl
    | cons y ys => simp at hlength
  | cons x xs ih =>
    cases ys with
    | nil => simp at hlength
    | cons y ys =>
      have htail : xs.length = ys.length := by simpa using hlength
      have hxs' : ∀ d ∈ xs, d < radix := (List.forall_mem_cons.mp hxs).2
      have hys' : ∀ d ∈ ys, d < radix := (List.forall_mem_cons.mp hys).2
      rw [extended_cons, extended_cons, List.compare_cons_cons]
      rcases Nat.lt_trichotomy x y with hlt | rfl | hgt
      · rw [Nat.compare_eq_lt.mpr hlt, Ordering.lt_then, Nat.compare_eq_lt]
        exact extended_lt_extended htail hxs' (by omega)
      · rw [Nat.compare_eq_eq.mpr rfl, Ordering.eq_then]
        exact ih htail hxs' hys' _
      · rw [Nat.compare_eq_gt.mpr hgt, Ordering.gt_then, Nat.compare_eq_gt]
        exact extended_lt_extended htail.symm hys' (by omega)

theorem compare_ofDigits {radix : Nat} {xs ys : List Nat} (hlength : xs.length = ys.length)
    (hxs : ∀ d ∈ xs, d < radix) (hys : ∀ d ∈ ys, d < radix) :
    compare (ofDigits radix xs) (ofDigits radix ys) = compare xs ys :=
  compare_extended hlength hxs hys 0

/-- Decimal digits come before letters, and both are in order. -/
theorem compare_char (letters : LetterCase) {d e : Nat} (hd : d < 16) (he : e < 16) :
    compare (char letters d) (char letters e) = compare d e := by
  have hall : ∀ d ∈ List.range 16, ∀ e ∈ List.range 16,
      compare (char .lower d) (char .lower e) = compare d e ∧
        compare (char .upper d) (char .upper e) = compare d e := by decide
  have hpair := hall d (List.mem_range.mpr hd) e (List.mem_range.mpr he)
  cases letters with
  | lower => exact hpair.1
  | upper => exact hpair.2

end Digit

/-! ### Texts -/

theorem compare_chars_eq_lt {cs ds : List Char} : compare cs ds = .lt ↔ cs < ds := by
  induction cs generalizing ds with
  | nil => cases ds <;> simp [List.compare_nil_cons]
  | cons c cs ih =>
    cases ds with
    | nil => simp [List.compare_cons_nil]
    | cons d ds =>
      have hhead : compare c d = .lt ↔ c < d := compareOfLessAndEq_eq_lt
      rw [List.compare_cons_cons, List.cons_lt_cons_iff, Ordering.then_eq_lt, ih, hhead,
        Std.LawfulEqOrd.compare_eq_iff_eq]

/-- Texts compare character by character. -/
theorem compare_ofList (cs ds : List Char) :
    compare (String.ofList cs) (String.ofList ds) = compare cs ds := by
  have hless : String.ofList cs < String.ofList ds ↔ cs < ds := by
    rw [String.lt_iff, String.toList_ofList, String.toList_ofList]
  cases hcompare : compare cs ds with
  | lt => exact compareOfLessAndEq_eq_lt.mpr (hless.mpr (compare_chars_eq_lt.mp hcompare))
  | eq => rw [Std.LawfulEqOrd.compare_eq_iff_eq.mp hcompare, Std.ReflOrd.compare_self]
  | gt =>
    have hnot : ¬ String.ofList cs < String.ofList ds := by
      rw [hless, ← compare_chars_eq_lt, hcompare]
      decide
    have hne : String.ofList cs ≠ String.ofList ds := by
      intro heq
      rw [String.ofList_injective heq, Std.ReflOrd.compare_self] at hcompare
      contradiction
    exact (if_neg hnot).trans (if_neg hne)

open Digit

/-! ### Words and bytes -/

/-- The first words that differ decide, as between sequences. -/
theorem Words.compareHigh_eq {xs ys : List UInt32} (hlength : xs.length = ys.length) :
    compareHigh xs ys = compare xs ys := by
  induction xs generalizing ys with
  | nil =>
    cases ys with
    | nil => rfl
    | cons y ys => simp at hlength
  | cons x xs ih =>
    cases ys with
    | nil => simp at hlength
    | cons y ys =>
      have htail : xs.length = ys.length := by simpa using hlength
      rw [compareHigh, List.compare_cons_cons, ih htail]

namespace Ident

theorem wordBytes_wordOfBytes (b₃ b₂ b₁ b₀ : UInt8) :
    wordBytes (wordOfBytes b₃ b₂ b₁ b₀) = [b₃, b₂, b₁, b₀] := by
  have h₃ := b₃.toNat_lt
  have h₂ := b₂.toNat_lt
  have h₁ := b₁.toNat_lt
  have h₀ := b₀.toNat_lt
  simp only [wordBytes, List.cons.injEq, and_true, ← UInt8.toNat_inj, UInt32.toNat_toUInt8,
    UInt32.toNat_shiftRight, toNat_wordOfBytes, Nat.shiftRight_eq_div_pow, UInt32.reduceToNat,
    Nat.reduceMod, Nat.reducePow]
  omega

theorem wordsOfBytes_wordBytes_append (word : UInt32) (rest : List UInt8) :
    wordsOfBytes (wordBytes word ++ rest) = word :: wordsOfBytes rest := by
  have hword := word.toNat_lt
  simp only [wordBytes, List.cons_append, List.nil_append, wordsOfBytes, List.cons.injEq, and_true,
    ← UInt32.toNat_inj, toNat_wordOfBytes, UInt32.toNat_toUInt8, UInt32.toNat_shiftRight,
    Nat.shiftRight_eq_div_pow, UInt32.reduceToNat, Nat.reduceMod, Nat.reducePow]
  omega

/-- Words that are written out as bytes are read back. -/
theorem wordsOfBytes_flatMap (words : List UInt32) :
    wordsOfBytes (words.flatMap wordBytes) = words := by
  induction words with
  | nil => rfl
  | cons word words ih => rw [List.flatMap_cons, wordsOfBytes_wordBytes_append, ih]

/-- No byte is dropped where bytes come in fours. -/
theorem flatMap_wordsOfBytes {data : List UInt8} (h : data.length % 4 = 0) :
    (wordsOfBytes data).flatMap wordBytes = data := by
  fun_induction wordsOfBytes data with
  | case1 b₃ b₂ b₁ b₀ rest ih =>
    have hrest : rest.length % 4 = 0 := by
      simp only [List.length_cons] at h
      omega
    rw [List.flatMap_cons, wordBytes_wordOfBytes, ih hrest]
    rfl
  | case2 data hshort =>
    obtain rfl := eq_nil_of_no_group h hshort
    rfl

theorem length_flatMap_wordBytes (words : List UInt32) :
    (words.flatMap wordBytes).length = words.length * 4 := by
  have hfour : (fun word => (wordBytes word).length) = fun _ => 4 := rfl
  rw [List.length_flatMap, hfour, List.map_const', List.sum_replicate_nat]

theorem length_bytes (a : Ident) : a.bytes.length = byteSize := by
  rw [bytes, length_flatMap_wordBytes, Vector.length_toList, byteSize]

theorem ofBytes_bytes (a : Ident) (h : a.bytes.length = byteSize) : ofBytes a.bytes h = a := by
  have hwords : (ofBytes a.bytes h).words.toList = a.words.toList :=
    wordsOfBytes_flatMap a.words.toList
  cases a
  exact congrArg Ident.mk (Vector.toList_inj.mp hwords)

/-- Bytes that are read as an identifier are written out again as they were. -/
theorem bytes_ofBytes (data : List UInt8) (h : data.length = byteSize) :
    (ofBytes data h).bytes = data :=
  flatMap_wordsOfBytes (by rw [h, byteSize])

theorem ofDigits_bytes (a : Ident) : ofDigits 256 (a.bytes.map UInt8.toNat) = a.toNat := by
  rw [← toNat_ofBytes a.bytes a.length_bytes, ofBytes_bytes]

/-! ### Order -/

/-- Identifiers are ordered by their numbers. -/
theorem compare_eq (a b : Ident) : compare a b = compare a.toNat b.toNat := by
  have hwords : compare a b = compare a.words.toList b.words.toList :=
    Words.compareHigh_eq (by simp)
  have hlt : ∀ c : Ident, ∀ d ∈ c.words.toList.map UInt32.toNat, d < 2 ^ 32 := by
    intro c d hd
    obtain ⟨word, -, rfl⟩ := List.mem_map.mp hd
    exact word.toNat_lt
  rw [hwords, toNat_eq_ofDigits, toNat_eq_ofDigits, compare_ofDigits (by simp) (hlt a) (hlt b)]
  exact (compare_map fun x _ y _ => (UInt32.compare_eq_toNat_compare_toNat x y).symm).symm

theorem atMost_iff (a b : Ident) : a.atMost b = true ↔ a.toNat ≤ b.toNat := by
  rw [atMost, compare_eq, Nat.isLE_compare]

theorem less_iff (a b : Ident) : a.less b = true ↔ a.toNat < b.toNat := by
  rw [less, compare_eq, Ordering.isLT_iff_eq_lt, Nat.compare_eq_lt]

theorem compare_bytes (a b : Ident) : compare a.bytes b.bytes = compare a.toNat b.toNat := by
  have hlt : ∀ c : Ident, ∀ d ∈ c.bytes.map UInt8.toNat, d < 256 := by
    intro c d hd
    obtain ⟨byte, -, rfl⟩ := List.mem_map.mp hd
    exact byte.toNat_lt
  rw [← ofDigits_bytes a, ← ofDigits_bytes b,
    compare_ofDigits (by simp [length_bytes]) (hlt a) (hlt b)]
  exact (compare_map fun x _ y _ => (UInt8.compare_eq_toNat_compare_toNat x y).symm).symm

theorem compare_wordsDigits (letters : LetterCase) (a b : Ident) :
    compare (String.ofList (wordsDigits letters a.words.toList))
      (String.ofList (wordsDigits letters b.words.toList)) = compare a.toNat b.toNat := by
  have hlt : ∀ c : Ident, ∀ d ∈ fixed 16 40 c.toNat, d < 16 :=
    fun c _ hd => lt_of_mem_fixed (by decide) hd
  have hdigits : ∀ c : Ident, ofDigits 16 (fixed 16 40 c.toNat) = c.toNat := by
    intro c
    have hc := c.toNat_lt
    rw [ofDigits_fixed]
    omega
  have hlength : (fixed 16 40 a.toNat).length = (fixed 16 40 b.toNat).length := by
    rw [length_fixed, length_fixed]
  rw [compare_ofList, wordsDigits_words, wordsDigits_words,
    compare_map fun d hd e he => compare_char letters (hlt a d hd) (hlt b e he),
    ← compare_ofDigits hlength (hlt a) (hlt b), hdigits, hdigits]

/-- The words, the bytes and the digits of an identifier write the same number, bytes and
identifiers determine each other, and identifiers are ordered by their numbers however they are
written. -/
theorem notations_denote_and_order_alike :
    (∀ a : Ident, a.toNat < 2 ^ 160 ∧
      ofDigits (2 ^ 32) (a.words.toList.map UInt32.toNat) = a.toNat ∧
      a.bytes.length = 20 ∧ ofDigits 256 (a.bytes.map UInt8.toNat) = a.toNat ∧
      a.toUpperHex.toList.length = 40 ∧ a.toUpperHex.toList.all isHex = true ∧
      written 16 a.toUpperHex.toList = a.toNat) ∧
    (∀ a : Ident, ofBytes a.bytes a.length_bytes = a) ∧
    (∀ data : Vector UInt8 byteSize, (ofBytes data.toList data.length_toList).bytes = data.toList) ∧
    ∀ a b : Ident, compare a b = compare a.toNat b.toNat ∧
      compare a.bytes b.bytes = compare a.toNat b.toNat ∧
      compare a.toUpperHex b.toUpperHex = compare a.toNat b.toNat ∧
      compare (a.lowerHex {}) (b.lowerHex {}) = compare a.toNat b.toNat := by
  refine ⟨?_, ?_, ?_, ?_⟩
  · intro a
    obtain ⟨-, -, -, hupper⟩ := renderings a
    obtain ⟨hlength, hdigits, hvalue⟩ :=
      readChars_eq_ok_iff.mp (readChars_wordsDigits .upper a)
    rw [hupper, String.toList_ofList]
    exact ⟨a.toNat_lt, a.toNat_eq_ofDigits.symm, a.length_bytes, a.ofDigits_bytes, hlength,
      List.all_eq_true.mpr hdigits, hvalue.symm⟩
  · intro a
    exact ofBytes_bytes a a.length_bytes
  · intro data
    exact bytes_ofBytes data.toList data.length_toList
  · intro a b
    obtain ⟨-, hlower, -, hupper⟩ := renderings a
    obtain ⟨-, hlower', -, hupper'⟩ := renderings b
    rw [hlower, hlower', hupper, hupper']
    exact ⟨compare_eq a b, compare_bytes a b, compare_wordsDigits .upper a b,
      compare_wordsDigits .lower a b⟩

end Ident

end Ident160
