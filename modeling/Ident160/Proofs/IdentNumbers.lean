import Ident160.Ident.Text
import Ident160.Proofs.Positional

/-!
The number of an identifier in its three written forms: five words, twenty bytes and forty digits.
Each form denotes the same number in its own radix, so an identifier is determined by its number,
and its digits are those of this number.
-/

namespace Ident160

open Digit

theorem Words.toNat_reverse (words : List UInt32) :
    Words.toNat words.reverse = ofDigits (2 ^ 32) (words.map UInt32.toNat) := by
  induction words using List.reverseRecOn with
  | nil => rfl
  | append_singleton words word ih =>
    rw [List.reverse_append, List.reverse_singleton, List.singleton_append, Words.toNat, ih,
      List.map_append, List.map_singleton, ofDigits_append_singleton]
    omega

/-- The eight digits of each word are, all in all, the digits of the number that the words
denote. -/
theorem wordsDigits_eq (letters : LetterCase) (words : List UInt32) :
    wordsDigits letters words =
      (fixed 16 (8 * words.length) (ofDigits (2 ^ 32) (words.map UInt32.toNat))).map
        (char letters) := by
  induction words using List.reverseRecOn with
  | nil => rfl
  | append_singleton words word ih =>
    have hword : word.toNat < 2 ^ 32 := word.toNat_lt
    have hhigh : (ofDigits (2 ^ 32) (words.map UInt32.toNat) * 2 ^ 32 + word.toNat) / 16 ^ 8 =
        ofDigits (2 ^ 32) (words.map UInt32.toNat) := by omega
    have hlow : (ofDigits (2 ^ 32) (words.map UInt32.toNat) * 2 ^ 32 + word.toNat) % 16 ^ 8 =
        word.toNat := by omega
    have hlast : fixed 16 8 (ofDigits (2 ^ 32) (words.map UInt32.toNat) * 2 ^ 32 + word.toNat) =
        fixed 16 8 word.toNat := by
      rw [← fixed_mod (by decide), hlow]
    have hinit : wordsDigits letters (words ++ [word]) =
        wordsDigits letters words ++ wordDigits letters word := by
      simp only [wordsDigits, List.flatMap_append, List.flatMap_cons, List.flatMap_nil,
        List.append_nil]
    rw [hinit, ih, List.map_append, List.map_singleton, ofDigits_append_singleton,
      List.length_append, List.length_singleton, Nat.mul_add, Nat.mul_one, fixed_append, hhigh,
      hlast, List.map_append]
    rfl

namespace Ident

theorem toNat_eq_ofDigits (a : Ident) :
    a.toNat = ofDigits (2 ^ 32) (a.words.toList.map UInt32.toNat) :=
  Words.toNat_reverse a.words.toList

/-- An identifier is determined by its number. -/
theorem toNat_injective {a b : Ident} (h : a.toNat = b.toNat) : a = b := by
  have hdigits : ∀ c : Ident, fixed (2 ^ 32) 5 c.toNat = c.words.toList.map UInt32.toNat := by
    intro c
    have hlt : ∀ d ∈ c.words.toList.map UInt32.toNat, d < 2 ^ 32 := by
      intro d hd
      obtain ⟨word, _, rfl⟩ := List.mem_map.mp hd
      exact word.toNat_lt
    have hfixed := fixed_ofDigits hlt
    rw [← toNat_eq_ofDigits, List.length_map, Vector.length_toList] at hfixed
    exact hfixed
  have hwords : a.words.toList.map UInt32.toNat = b.words.toList.map UInt32.toNat := by
    rw [← hdigits a, ← hdigits b, h]
  have hlist : a.words.toList = b.words.toList :=
    (List.map_inj_right fun _ _ heq => UInt32.toNat_inj.mp heq).mp hwords
  cases a
  cases b
  exact congrArg Ident.mk (Vector.toList_inj.mp hlist)

theorem toNat_eq_zero_iff (a : Ident) : a.toNat = 0 ↔ a = zero :=
  ⟨fun h => toNat_injective h, fun h => h ▸ rfl⟩

theorem isZero_iff (a : Ident) : a.isZero = true ↔ a.toNat = 0 := by
  have hwords : a.isZero = true ↔ a.words = zero.words := by
    rw [isZero, Vector.all_eq_true', show zero.words = Vector.replicate 5 0 from rfl,
      Vector.eq_replicate_iff]
    simp only [beq_iff_eq]
  rw [hwords, toNat_eq_zero_iff]
  exact ⟨fun h => congrArg Ident.mk h, fun h => congrArg Ident.words h⟩

/-- An identifier is written by the forty digits of its number. -/
theorem wordsDigits_words (letters : LetterCase) (a : Ident) :
    wordsDigits letters a.words.toList = (fixed 16 40 a.toNat).map (char letters) := by
  rw [wordsDigits_eq, ← toNat_eq_ofDigits, Vector.length_toList]

/-! ### Bytes -/

theorem toNat_wordOfBytes (b₃ b₂ b₁ b₀ : UInt8) :
    (wordOfBytes b₃ b₂ b₁ b₀).toNat =
      ((b₃.toNat * 256 + b₂.toNat) * 256 + b₁.toNat) * 256 + b₀.toNat := by
  have h₃ := b₃.toNat_lt
  have h₂ := b₂.toNat_lt
  have h₁ := b₁.toNat_lt
  have h₀ := b₀.toNat_lt
  have hshift : ∀ (b : UInt8) (k : Nat), k ≤ 24 → b.toNat <<< k % 2 ^ 32 = 2 ^ k * b.toNat := by
    intro b k hk
    have hb := b.toNat_lt
    have hpow : 2 ^ k * b.toNat < 2 ^ 32 := calc
      2 ^ k * b.toNat < 2 ^ k * 2 ^ 8 := Nat.mul_lt_mul_of_pos_left hb (Nat.two_pow_pos k)
      _ = 2 ^ (k + 8) := (Nat.pow_add 2 k 8).symm
      _ ≤ 2 ^ 32 := Nat.pow_le_pow_right (by decide) (by omega)
    rw [Nat.shiftLeft_eq, Nat.mul_comm, Nat.mod_eq_of_lt hpow]
  have hor : ∀ k m n : Nat, n < 2 ^ k → 2 ^ k * m ||| n = 2 ^ k * m + n :=
    fun k m n h => (Nat.two_pow_add_eq_or_of_lt h m).symm
  have hword : (wordOfBytes b₃ b₂ b₁ b₀).toNat =
      2 ^ 24 * b₃.toNat ||| 2 ^ 16 * b₂.toNat ||| 2 ^ 8 * b₁.toNat ||| b₀.toNat := by
    simp only [wordOfBytes, UInt32.toNat_or, UInt32.toNat_shiftLeft, UInt8.toNat_toUInt32]
    rw [← hshift b₃ 24 (by decide), ← hshift b₂ 16 (by decide), ← hshift b₁ 8 (by decide)]
    rfl
  calc
    _ = _ := hword
    _ = 2 ^ 16 * (2 ^ 8 * b₃.toNat + b₂.toNat) ||| 2 ^ 8 * b₁.toNat ||| b₀.toNat := by
      rw [hor 24 _ _ (by omega), show 2 ^ 24 * b₃.toNat + 2 ^ 16 * b₂.toNat =
        2 ^ 16 * (2 ^ 8 * b₃.toNat + b₂.toNat) by omega]
    _ = 2 ^ 8 * (2 ^ 8 * (2 ^ 8 * b₃.toNat + b₂.toNat) + b₁.toNat) ||| b₀.toNat := by
      rw [hor 16 _ _ (by omega), show 2 ^ 16 * (2 ^ 8 * b₃.toNat + b₂.toNat) + 2 ^ 8 * b₁.toNat =
        2 ^ 8 * (2 ^ 8 * (2 ^ 8 * b₃.toNat + b₂.toNat) + b₁.toNat) by omega]
    _ = _ := by
      rw [hor 8 _ _ (by omega)]
      omega

/-- Bytes that come in fours start with a group of four, if there are any. -/
theorem eq_nil_of_no_group {data : List UInt8} (h : data.length % 4 = 0)
    (hshort : ∀ b₃ b₂ b₁ b₀ rest, data = b₃ :: b₂ :: b₁ :: b₀ :: rest → False) : data = [] := by
  rcases data with _ | ⟨b₃, _ | ⟨b₂, _ | ⟨b₁, _ | ⟨b₀, rest⟩⟩⟩⟩
  · rfl
  · simp at h
  · simp at h
  · simp at h
  · exact absurd rfl (hshort b₃ b₂ b₁ b₀ rest)

/-- Words are bytes taken four at a time, and so denote the same number. -/
theorem extended_wordsOfBytes (n : Nat) (data : List UInt8) (h : data.length % 4 = 0) :
    extended (2 ^ 32) n ((wordsOfBytes data).map UInt32.toNat) =
      extended 256 n (data.map UInt8.toNat) := by
  fun_induction wordsOfBytes data generalizing n with
  | case1 b₃ b₂ b₁ b₀ rest ih =>
    have hrest : rest.length % 4 = 0 := by
      simp only [List.length_cons] at h
      omega
    have hword : n * 2 ^ 32 + (wordOfBytes b₃ b₂ b₁ b₀).toNat =
        (((n * 256 + b₃.toNat) * 256 + b₂.toNat) * 256 + b₁.toNat) * 256 + b₀.toNat := by
      rw [toNat_wordOfBytes]
      omega
    simp only [List.map_cons, extended_cons]
    rw [ih _ hrest, hword]
  | case2 data hshort =>
    obtain rfl := eq_nil_of_no_group h hshort
    simp [extended]

/-- Twenty bytes write the number of their identifier. -/
theorem toNat_ofBytes (data : List UInt8) (h : data.length = byteSize) :
    (ofBytes data h).toNat = ofDigits 256 (data.map UInt8.toNat) := by
  have hlength : data.length % 4 = 0 := by rw [h, byteSize]
  rw [toNat_eq_ofDigits, ofDigits_eq_extended, ofDigits_eq_extended,
    ← extended_wordsOfBytes 0 data hlength]
  rfl

end Ident

end Ident160
