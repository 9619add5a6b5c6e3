import Ident160.Proofs.IdentBits
import Mathlib.Tactic.Ring

/-!
Shifts as multiplication and division by powers of two. A shift by less than a word moves bits into
the neighbour of each word, and the rest of a shift moves whole words. Going up, what leaves the
highest word is lost; going down, what leaves the lowest.
-/

namespace Ident160

namespace Words

/-! ### Within a word -/

theorem two_pow_split {k : Nat} (h : k < 32) : 2 ^ k * 2 ^ (32 - k) = 2 ^ 32 := by
  rw [← Nat.pow_add, Nat.add_sub_of_le (Nat.le_of_lt h)]

/-- A word that is shifted up keeps its low bits. -/
theorem toNat_up {places : UInt32} (h : places.toNat < 32) (word : UInt32) :
    (word <<< places).toNat = 2 ^ places.toNat * (word.toNat % 2 ^ (32 - places.toNat)) := by
  rw [UInt32.toNat_shiftLeft, Nat.mod_eq_of_lt h, Nat.shiftLeft_eq, Nat.mul_comm,
    ← two_pow_split h, Nat.mul_mod_mul_left]

/-- A word that is shifted down keeps its high bits. -/
theorem toNat_down {places : UInt32} (h : places.toNat < 32) (word : UInt32) :
    (word >>> places).toNat = word.toNat / 2 ^ places.toNat := by
  rw [UInt32.toNat_shiftRight, Nat.mod_eq_of_lt h, Nat.shiftRight_eq_div_pow]

theorem toNat_spillPlaces {bits : UInt32} (h : bits.toNat < 32) :
    (spillPlaces bits).toNat = 32 - bits.toNat :=
  UInt32.toNat_sub_of_le 32 bits (UInt32.le_iff_toNat_le.mpr (Nat.le_of_lt h))

theorem spillPlaces_lt {bits : UInt32} (h : bits.toNat < 32) (hne : bits ≠ 0) :
    (spillPlaces bits).toNat < 32 := by
  have hpos : bits.toNat ≠ 0 := fun heq => hne (UInt32.toNat_inj.mp heq)
  rw [toNat_spillPlaces h]
  omega

/-- The bits that move up are the high ones of the word below. A shift by whole words moves none,
as no word has bits from 2^32 on. -/
theorem toNat_spillUp {bits : UInt32} (h : bits.toNat < 32) (below : UInt32) :
    (spillUp bits below).toNat = below.toNat / 2 ^ (32 - bits.toNat) := by
  rw [spillUp]
  split
  · next hzero =>
    rw [hzero]
    exact (Nat.div_eq_of_lt below.toNat_lt).symm
  · next hne => rw [toNat_down (spillPlaces_lt h hne), toNat_spillPlaces h]

/-- The bits that move down are the low ones of the word above. -/
theorem toNat_spillDown {bits : UInt32} (h : bits.toNat < 32) (above : UInt32) :
    (spillDown bits above).toNat = 2 ^ (32 - bits.toNat) * (above.toNat % 2 ^ bits.toNat) := by
  rw [spillDown]
  split
  · next hzero =>
    rw [hzero]
    exact (Nat.mul_eq_zero.mpr (Or.inr (Nat.mod_one _))).symm
  · next hne =>
    rw [toNat_up (spillPlaces_lt h hne), toNat_spillPlaces h, Nat.sub_sub_self (Nat.le_of_lt h)]

/-- The bits from below go where a word that is shifted up has made room. -/
theorem toNat_up_or_spillUp {bits : UInt32} (h : bits.toNat < 32) (word below : UInt32) :
    (word <<< bits ||| spillUp bits below).toNat =
      2 ^ bits.toNat * (word.toNat % 2 ^ (32 - bits.toNat)) +
        below.toNat / 2 ^ (32 - bits.toNat) := by
  have hspill : below.toNat / 2 ^ (32 - bits.toNat) < 2 ^ bits.toNat := by
    apply Nat.div_lt_of_lt_mul
    rw [Nat.mul_comm, two_pow_split h]
    exact below.toNat_lt
  rw [UInt32.toNat_or, toNat_up h, toNat_spillUp h, ← Nat.two_pow_add_eq_or_of_lt hspill]

/-- The bits from above go where a word that is shifted down has made room. -/
theorem toNat_down_or_spillDown {bits : UInt32} (h : bits.toNat < 32) (word above : UInt32) :
    (word >>> bits ||| spillDown bits above).toNat =
      word.toNat / 2 ^ bits.toNat + 2 ^ (32 - bits.toNat) * (above.toNat % 2 ^ bits.toNat) := by
  have hdown : word.toNat / 2 ^ bits.toNat < 2 ^ (32 - bits.toNat) := by
    apply Nat.div_lt_of_lt_mul
    rw [two_pow_split h]
    exact word.toNat_lt
  rw [UInt32.toNat_or, toNat_down h, toNat_spillDown h, Nat.or_comm,
    ← Nat.two_pow_add_eq_or_of_lt hdown, Nat.add_comm]

/-! ### Across words -/

/-- Bits that leave a word enter the next one, and only those above the last word are lost. -/
theorem toNat_shiftUp {bits : UInt32} (h : bits.toNat < 32) (below : UInt32)
    (words : List UInt32) :
    toNat (shiftUp bits below words) =
      (2 ^ bits.toNat * toNat words + below.toNat / 2 ^ (32 - bits.toNat)) %
        2 ^ (32 * words.length) := by
  induction words generalizing below with
  | nil => simp [shiftUp, toNat, Nat.mod_one]
  | cons word words ih =>
    -- The low bits of the word stay in its place, and its high bits go into the word above.
    have hword : 2 ^ bits.toNat * word.toNat =
        2 ^ bits.toNat * (word.toNat % 2 ^ (32 - bits.toNat)) +
          2 ^ 32 * (word.toNat / 2 ^ (32 - bits.toNat)) := by
      rw [← two_pow_split h, Nat.mul_assoc, ← Nat.mul_add, Nat.mod_add_div]
    have hsum : 2 ^ bits.toNat * (word.toNat % 2 ^ (32 - bits.toNat)) +
          below.toNat / 2 ^ (32 - bits.toNat) +
          2 ^ 32 * (2 ^ bits.toNat * toNat words + word.toNat / 2 ^ (32 - bits.toNat)) =
        2 ^ bits.toNat * (word.toNat + 2 ^ 32 * toNat words) +
          below.toNat / 2 ^ (32 - bits.toNat) := by
      rw [Nat.mul_add (2 ^ bits.toNat), hword]
      ring
    rw [shiftUp, toNat, toNat, ih, ← word_add_mod, toNat_up_or_spillUp h, List.length_cons, hsum]

/-- The low bits of a number are those of its lowest word. -/
theorem headD_mod {k : Nat} (h : k < 32) (words : List UInt32) :
    (words.headD 0).toNat % 2 ^ k = toNat words % 2 ^ k := by
  cases words with
  | nil => rfl
  | cons word words =>
    rw [List.headD_cons, toNat, ← two_pow_split h, Nat.mul_assoc, Nat.add_mul_mod_self_left]

/-- Bits that leave a word enter the one below it, and only those below the first are lost. -/
theorem toNat_shiftDown {bits : UInt32} (h : bits.toNat < 32) (words : List UInt32) :
    toNat (shiftDown bits words) = toNat words / 2 ^ bits.toNat := by
  induction words with
  | nil => simp [shiftDown, toNat]
  | cons word words ih =>
    -- The low bits of the words above come into the place of this word.
    have hwords : 2 ^ (32 - bits.toNat) * toNat words =
        2 ^ (32 - bits.toNat) * (toNat words % 2 ^ bits.toNat) +
          2 ^ 32 * (toNat words / 2 ^ bits.toNat) := by
      rw [← two_pow_split h, Nat.mul_comm (2 ^ bits.toNat), Nat.mul_assoc, ← Nat.mul_add,
        Nat.mod_add_div]
    have hdiv : (word.toNat + 2 ^ 32 * toNat words) / 2 ^ bits.toNat =
        word.toNat / 2 ^ bits.toNat + 2 ^ (32 - bits.toNat) * toNat words := by
      rw [← two_pow_split h, Nat.mul_assoc, Nat.add_mul_div_left _ _ (Nat.two_pow_pos _)]
    rw [shiftDown, toNat, toNat, ih, toNat_down_or_spillDown h, headD_mod h, hdiv, hwords,
      Nat.add_assoc]

theorem toNat_shiftLeft (gap : Nat) {bits : UInt32} (h : bits.toNat < 32) (words : List UInt32) :
    toNat (shiftLeft gap bits words) =
      toNat words * 2 ^ (32 * gap + bits.toNat) % 2 ^ (32 * words.length) := by
  have hproduct : 2 ^ (32 * gap) * (2 ^ bits.toNat * toNat words) =
      toNat words * 2 ^ (32 * gap + bits.toNat) := by
    rw [← Nat.mul_assoc, ← Nat.pow_add, Nat.mul_comm]
  rw [shiftLeft, toNat_take, toNat_append, toNat_replicate_zero, List.length_replicate,
    toNat_shiftUp h, UInt32.toNat_zero, Nat.zero_div, Nat.add_zero, Nat.zero_add, Nat.mul_mod_mod,
    hproduct]

theorem toNat_shiftRight (gap : Nat) {bits : UInt32} (h : bits.toNat < 32) (words : List UInt32) :
    toNat (shiftRight gap bits words) = toNat words / 2 ^ (32 * gap + bits.toNat) := by
  have hlt : toNat words / 2 ^ (32 * gap + bits.toNat) < 2 ^ (32 * words.length) :=
    Nat.lt_of_le_of_lt (Nat.div_le_self _ _) (toNat_lt words)
  rw [shiftRight, toNat_take, toNat_append, toNat_replicate_zero, toNat_shiftDown h, toNat_drop,
    Nat.div_div_eq_div_mul, ← Nat.pow_add, Nat.mul_zero, Nat.add_zero, Nat.mod_eq_of_lt hlt]

end Words

namespace Ident

theorem bitGap_lt (places : UInt32) : (Words.bitGap places).toNat < 32 := by
  rw [Words.bitGap, UInt32.toNat_mod]
  exact Nat.mod_lt _ (by decide)

/-- Whole words and the places beyond them make up a shift. -/
theorem gaps_eq (places : UInt32) :
    32 * Words.wordGap places + (Words.bitGap places).toNat = places.toNat := by
  rw [Words.wordGap, Words.bitGap, UInt32.toNat_div, UInt32.toNat_mod]
  exact Nat.div_add_mod places.toNat 32

theorem toNat_shiftLeft (a : Ident) (places : UInt32) :
    (a.shiftLeft places).toNat = a.toNat * 2 ^ places.toNat % 2 ^ 160 := by
  rw [shiftLeft]
  split
  · next hall =>
    have hdvd : 2 ^ 160 ∣ a.toNat * 2 ^ places.toNat :=
      Nat.dvd_mul_left_of_dvd (Nat.pow_dvd_pow 2 (UInt32.le_iff_toNat_le.mp hall)) _
    rw [Nat.mod_eq_zero_of_dvd hdvd]
    rfl
  · rw [toNat_ofLowWords, Words.toNat_shiftLeft _ (bitGap_lt places), gaps_eq, length_lowWords]
    rfl

theorem toNat_shiftRight (a : Ident) (places : UInt32) :
    (a.shiftRight places).toNat = a.toNat / 2 ^ places.toNat := by
  rw [shiftRight]
  split
  · next hall =>
    have hlt : a.toNat < 2 ^ places.toNat :=
      Nat.lt_of_lt_of_le a.toNat_lt
        (Nat.pow_le_pow_right (by decide) (UInt32.le_iff_toNat_le.mp hall))
    rw [Nat.div_eq_of_lt hlt]
    rfl
  · rw [toNat_ofLowWords, Words.toNat_shiftRight _ (bitGap_lt places), gaps_eq]
    rfl

/-- A number is shifted up without loss as long as its bits stay below 160. -/
theorem toNat_shiftLeft_of_fits {a : Ident} {places : UInt32}
    (h : a.bitLength + places.toNat ≤ 160) :
    (a.shiftLeft places).toNat = a.toNat * 2 ^ places.toNat := by
  have hlt : a.toNat * 2 ^ places.toNat < 2 ^ 160 := calc
    a.toNat * 2 ^ places.toNat < 2 ^ a.bitLength * 2 ^ places.toNat :=
      Nat.mul_lt_mul_of_pos_right a.lt_two_pow_bitLength (Nat.two_pow_pos _)
    _ = 2 ^ (a.bitLength + places.toNat) := (Nat.pow_add ..).symm
    _ ≤ 2 ^ 160 := Nat.pow_le_pow_right (by decide) h
  rw [toNat_shiftLeft, Nat.mod_eq_of_lt hlt]

/-- Shifts multiply and divide by powers of two, whatever the number of places. A shift by 160
places or more leaves nothing, and a shift up that loses no bit is undone by the shift down. -/
theorem shifts_scale_by_two_powers (a : Ident) (places : UInt32) :
    (a.shiftLeft places).toNat = a.toNat * 2 ^ places.toNat % 2 ^ 160 ∧
      (a.shiftRight places).toNat = a.toNat / 2 ^ places.toNat ∧
      (160 ≤ places.toNat → a.shiftLeft places = zero ∧ a.shiftRight places = zero) ∧
      (a.bitLength + places.toNat ≤ 160 → (a.shiftLeft places).shiftRight places = a) := by
  refine ⟨toNat_shiftLeft a places, toNat_shiftRight a places, ?_, ?_⟩
  · intro hall
    have hall' : 160 ≤ places := UInt32.le_iff_toNat_le.mpr hall
    exact ⟨if_pos hall', if_pos hall'⟩
  · intro hfits
    apply toNat_injective
    rw [toNat_shiftRight, toNat_shiftLeft_of_fits hfits, Nat.mul_div_cancel _ (Nat.two_pow_pos _)]

/-- The highest bit of a number of 60 bits goes up over three words and stops at the last place. -/
theorem shift_of_sixty_bits_undone :
    bitLength ⟨#v[0, 0, 0, 0x0FFFFFFF, 0x9E3779B9]⟩ + (100 : UInt32).toNat ≤ 160 ∧
      (shiftLeft ⟨#v[0, 0, 0, 0x0FFFFFFF, 0x9E3779B9]⟩ 100).shiftRight 100 =
        ⟨#v[0, 0, 0, 0x0FFFFFFF, 0x9E3779B9]⟩ ∧
      160 ≤ (4294967295 : UInt32).toNat ∧ shiftLeft max 4294967295 = zero := by
  have hfits : bitLength ⟨#v[0, 0, 0, 0x0FFFFFFF, 0x9E3779B9]⟩ + (100 : UInt32).toNat ≤ 160 := by
    decide
  have hall : 160 ≤ (4294967295 : UInt32).toNat := by decide
  exact ⟨hfits, (shifts_scale_by_two_powers _ 100).2.2.2 hfits, hall,
    ((shifts_scale_by_two_powers max 4294967295).2.2.1 hall).1⟩

end Ident

end Ident160
