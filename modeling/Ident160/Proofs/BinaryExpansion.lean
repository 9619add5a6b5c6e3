import Ident160.Proofs.IdentBits
import Ident160.Proofs.Sums
import Mathlib.Order.Bounds.Defs

/-!
Identifiers by their binary digits. A bit is a binary digit of the number and there are 160 of
them, so a bitwise operation is known by what it does to single bits. The bit length tells where
the digits end: it is the least number of digits that the number fits.
-/

namespace Ident160.Ident

/-! ### Bits -/

theorem bit_eq_true_iff (a : Ident) (i : UInt32) :
    a.bit i = true ↔ i < 160 ∧ a.toNat / 2 ^ i.toNat % 2 = 1 := by
  rw [bit_eq_testBit, Nat.testBit_eq_decide_div_mod_eq, decide_eq_true_eq]
  constructor
  · intro hdigit
    refine ⟨?_, hdigit⟩
    by_contra hi
    have hge : 160 ≤ i.toNat := Nat.le_of_not_lt fun hlt => hi (UInt32.lt_iff_toNat_lt.mpr hlt)
    have hsmall : a.toNat < 2 ^ i.toNat :=
      Nat.lt_of_lt_of_le a.toNat_lt (Nat.pow_le_pow_right (by decide) hge)
    rw [Nat.div_eq_of_lt hsmall] at hdigit
    contradiction
  · exact And.right

theorem bit_and (a b : Ident) (i : UInt32) : (a.and b).bit i = (a.bit i && b.bit i) := by
  rw [bit_eq_testBit, bit_eq_testBit, bit_eq_testBit, toNat_and, Nat.testBit_and]

theorem bit_or (a b : Ident) (i : UInt32) : (a.or b).bit i = (a.bit i || b.bit i) := by
  rw [bit_eq_testBit, bit_eq_testBit, bit_eq_testBit, toNat_or, Nat.testBit_or]

theorem bit_xor (a b : Ident) (i : UInt32) : (a.xor b).bit i = (a.bit i ^^ b.bit i) := by
  rw [bit_eq_testBit, bit_eq_testBit, bit_eq_testBit, toNat_xor, Nat.testBit_xor]

/-- The complement turns the 160 bits over. Above them there is none before and none after. -/
theorem bit_not (a : Ident) (i : UInt32) : a.not.bit i = (decide (i < 160) && !a.bit i) := by
  have hplaces : decide (i < 160) = decide (i.toNat < 160) :=
    decide_eq_decide.mpr UInt32.lt_iff_toNat_lt
  have hlacks : 2 ^ 160 - 1 - a.toNat = 2 ^ 160 - (a.toNat + 1) := by omega
  rw [bit_eq_testBit, bit_eq_testBit, toNat_not, hlacks, Nat.testBit_two_pow_sub_succ a.toNat_lt,
    hplaces]

/-! ### Bit lengths -/

/-- The bit length is enough for the number, and nothing less is. -/
theorem isLeast_bitLength (a : Ident) : IsLeast {n | a.toNat < 2 ^ n} a.bitLength := by
  refine ⟨a.lt_two_pow_bitLength, fun n hn => ?_⟩
  rw [bitLength_eq_size]
  exact Nat.size_le.mpr hn

theorem bitLength_eq_zero_iff (a : Ident) : a.bitLength = 0 ↔ a.toNat = 0 := by
  rw [bitLength_eq_size, Nat.size_eq_zero]

theorem bitLength_eq_log2 {a : Ident} (h : a.toNat ≠ 0) : a.bitLength = a.toNat.log2 + 1 := by
  apply eq_of_forall_ge_iff
  intro n
  rw [bitLength_eq_size, Nat.size_le, Nat.succ_le_iff, Nat.log2_lt h]

/-- The highest bit set stands one place below the bit length. -/
theorem bit_pred_bitLength {a : Ident} (h : a.isZero = false) :
    a.bit (a.bitLength - 1).toUInt32 = true := by
  have hne : a.toNat ≠ 0 := by
    rw [ne_eq, ← isZero_iff, h]
    exact Bool.false_ne_true
  have hlength := bitLength_eq_log2 hne
  have hsmall : a.toNat.log2 < 160 := by
    have hle := a.bitLength_le
    omega
  have hindex : (a.bitLength - 1).toUInt32.toNat = a.toNat.log2 := by
    rw [hlength, Nat.add_sub_cancel]
    exact UInt32.toNat_ofNat_of_lt (Nat.lt_trans hsmall (by decide))
  rw [bit_eq_testBit, hindex]
  exact Nat.testBit_log2 hne

/-- No bit is set from the bit length on. -/
theorem bit_of_bitLength_le {a : Ident} {i : UInt32} (h : a.bitLength ≤ i.toNat) :
    a.bit i = false := by
  rw [bit_eq_testBit]
  exact Nat.testBit_lt_two_pow
    (Nat.lt_of_lt_of_le a.lt_two_pow_bitLength (Nat.pow_le_pow_right (by decide) h))

/-- The bits of an identifier are the binary digits of its number, and the bitwise operations work
on each of them. The bit length is the least number of digits that hold the number. It is zero for
zero alone, and otherwise the bit below it is set and no other bit is above that one. -/
theorem bits_are_binary_digits :
    (∀ (a : Ident) (i : UInt32), a.bit i = true ↔ i < 160 ∧ a.toNat / 2 ^ i.toNat % 2 = 1) ∧
    (∀ (a b : Ident) (i : UInt32),
      (a.and b).bit i = (a.bit i && b.bit i) ∧ (a.or b).bit i = (a.bit i || b.bit i) ∧
        (a.xor b).bit i = (a.bit i ^^ b.bit i)) ∧
    (∀ (a : Ident) (i : UInt32), i < 160 → a.not.bit i = !a.bit i) ∧
    (∀ a : Ident, a.not.toNat = 2 ^ 160 - 1 - a.toNat) ∧
    (∀ a : Ident, IsLeast {n | a.toNat < 2 ^ n} a.bitLength) ∧
    (∀ a : Ident, (a.bitLength = 0 ↔ a.isZero = true) ∧ (a.isZero = true ↔ a.toNat = 0)) ∧
    (∀ a : Ident, a.isZero = false → a.bit (a.bitLength - 1).toUInt32 = true) ∧
    ∀ (a : Ident) (i : UInt32), a.bitLength ≤ i.toNat → a.bit i = false := by
  refine ⟨bit_eq_true_iff, fun a b i => ⟨bit_and a b i, bit_or a b i, bit_xor a b i⟩, ?_, toNat_not,
    isLeast_bitLength, fun a => ⟨?_, a.isZero_iff⟩, fun a => bit_pred_bitLength,
    fun a i => bit_of_bitLength_le⟩
  · intro a i hi
    rw [bit_not, decide_eq_true hi, Bool.true_and]
  · rw [bitLength_eq_zero_iff, isZero_iff]

/-- The highest of 64 bits stands in the second word from the low end, and the complement lacks
it. -/
theorem highest_of_sixty_four_bits :
    let a : Ident := ⟨#v[0, 0, 0, 0x80000000, 1]⟩
    a.isZero = false ∧ a.bitLength = 64 ∧ a.bit 63 = true ∧ a.bit 64 = false ∧
      a.not.bit 63 = false := by
  intro a
  obtain ⟨-, -, hnot, -, -, -, hhighest, habove⟩ := bits_are_binary_digits
  have hzero : a.isZero = false := by decide +kernel
  have hlength : a.bitLength = 64 := by decide
  have hset : a.bit 63 = true := by
    have hbit := hhighest a hzero
    rwa [hlength] at hbit
  refine ⟨hzero, hlength, hset, habove a 64 (by rw [hlength]; decide), ?_⟩
  rw [hnot a 63 (by decide), hset]
  rfl

end Ident160.Ident
