import Ident160.Proofs.IdentBits
import Mathlib.Data.Nat.Bitwise

/-!
The XOR distance as a metric. On the numbers of identifiers it is the exclusive or, from which all
of its laws follow: two identifiers are as far apart as the places where their bits differ say, the
distance of the first such place is all that the bit length sees, and a distance can be laid off
from any identifier in one way only.
-/

namespace Ident160

/-- What is carried when two numbers are added is missing from their exclusive or. -/
theorem xor_le_add (x y : Nat) : x ^^^ y ≤ x + y := by
  induction x using Nat.strongRecOn generalizing y with
  | ind x ih =>
    by_cases hx : x = 0
    · simp [hx]
    · have hhalves : x / 2 ^^^ y / 2 ≤ x / 2 + y / 2 := ih (x / 2) (by omega) (y / 2)
      have hdiv : (x ^^^ y) / 2 = x / 2 ^^^ y / 2 := Nat.xor_div_two
      have hmod : (x ^^^ y) % 2 = (x + y) % 2 := Nat.xor_mod_two_eq
      omega

/-- The size of a number that fits `n` digits is what the leading zeros leave of them. -/
theorem size_eq_sub_leading {x n : Nat} {p : Nat → Bool} (hp : ∀ i < n, p i = !x.testBit i)
    (h : x < 2 ^ n) : x.size = n - ((List.range n).reverse.takeWhile p).length := by
  induction n with
  | zero =>
    have hzero : x = 0 := by omega
    simp [hzero]
  | succ n ih =>
    have hplace := hp n (Nat.lt_succ_self n)
    rw [List.range_succ, List.reverse_append, List.reverse_singleton, List.singleton_append]
    cases hbit : x.testBit n with
    | true =>
      have hle : 2 ^ n ≤ x := Nat.ge_two_pow_of_testBit hbit
      have hsize : n < x.size := Nat.lt_size.mpr hle
      have hsize' : x.size ≤ n + 1 := Nat.size_le.mpr h
      rw [List.takeWhile_cons_of_neg (by simp [hplace, hbit])]
      simp only [List.length_nil]
      omega
    | false =>
      have hlt : x < 2 ^ n := by
        by_contra hge
        have hsize : x / 2 ^ n = 1 := by
          apply Nat.div_eq_of_lt_le
          · omega
          · rw [Nat.pow_succ] at h
            omega
        rw [Nat.testBit_eq_decide_div_mod_eq, hsize] at hbit
        contradiction
      have hbelow : ∀ i < n, p i = !x.testBit i := fun i hi => hp i (Nat.lt_succ_of_lt hi)
      rw [List.takeWhile_cons_of_pos (by simp [hplace, hbit]), List.length_cons, ih hbelow hlt]
      omega

namespace Ident

/-- The number of leading bits, from the most significant one down, on which two identifiers
agree. -/
def agreement (a b : Ident) : Nat :=
  ((List.range bitSize).reverse.takeWhile fun i => a.bit i.toUInt32 == b.bit i.toUInt32).length

theorem toNat_distance (a b : Ident) : (a.distance b).toNat = a.toNat ^^^ b.toNat := toNat_xor a b

theorem distance_comm (a b : Ident) : a.distance b = b.distance a := by
  apply toNat_injective
  rw [toNat_distance, toNat_distance, Nat.xor_comm]

theorem distance_eq_zero_iff (a b : Ident) : a.distance b = zero ↔ a = b := by
  rw [← toNat_eq_zero_iff, toNat_distance, Nat.xor_eq_zero_iff]
  exact ⟨fun h => toNat_injective h, fun h => congrArg toNat h⟩

/-- The way from `a` to `c` goes over any `b`. -/
theorem toNat_distance_trans (a b c : Ident) :
    (a.distance c).toNat = (a.distance b).toNat ^^^ (b.distance c).toNat := by
  rw [toNat_distance, toNat_distance, toNat_distance, Nat.xor_assoc, Nat.xor_xor_cancel_left]

/-- The distance of a distance leads back. -/
theorem distance_distance (a b : Ident) : a.distance (a.distance b) = b := by
  apply toNat_injective
  rw [toNat_distance, toNat_distance, Nat.xor_xor_cancel_left]

/-- No way over another identifier has both legs shorter, in bits, than the direct one. -/
theorem bitLength_distance_le (a b c : Ident) :
    (a.distance c).bitLength ≤ Max.max (a.distance b).bitLength (b.distance c).bitLength := by
  rw [bitLength_eq_size, Nat.size_le, toNat_distance_trans a b c]
  apply Nat.xor_lt_two_pow
  · rw [← Nat.size_le, ← bitLength_eq_size]
    exact Nat.le_max_left _ _
  · rw [← Nat.size_le, ← bitLength_eq_size]
    exact Nat.le_max_right _ _

/-- The leading zeros of the distance are the places where the leading bits agree. -/
theorem bitLength_distance (a b : Ident) : (a.distance b).bitLength = 160 - agreement a b := by
  have hplace : ∀ i < bitSize,
      (a.bit i.toUInt32 == b.bit i.toUInt32) = !(a.distance b).toNat.testBit i := by
    intro i hi
    have hindex : i.toUInt32.toNat = i :=
      UInt32.toNat_ofNat_of_lt (Nat.lt_trans hi (by decide))
    rw [bit_eq_testBit, bit_eq_testBit, hindex, toNat_distance, Nat.testBit_xor]
    cases a.toNat.testBit i <;> cases b.toNat.testBit i <;> rfl
  rw [bitLength_eq_size]
  exact size_eq_sub_leading hplace (a.distance b).toNat_lt

/-- The XOR distance is a metric on the numbers of identifiers and an ultrametric on bit lengths.
Every distance is taken exactly once from every identifier, and its bit length tells how many
leading bits agree. -/
theorem xor_distance_metric :
    (∀ a b : Ident, a.distance b = zero ↔ a = b) ∧
    (∀ a b : Ident, a.distance b = b.distance a) ∧
    (∀ a b c : Ident, (a.distance c).toNat ≤ (a.distance b).toNat + (b.distance c).toNat) ∧
    (∀ a b c : Ident,
      (a.distance c).bitLength ≤ Max.max (a.distance b).bitLength (b.distance c).bitLength) ∧
    (∀ a d : Ident, ∃! b : Ident, a.distance b = d) ∧
    ∀ a b : Ident, (a.distance b).bitLength = 160 - agreement a b := by
  refine ⟨distance_eq_zero_iff, distance_comm, ?_, bitLength_distance_le, ?_, bitLength_distance⟩
  · intro a b c
    rw [toNat_distance_trans a b c]
    exact xor_le_add _ _
  · intro a d
    refine ⟨a.distance d, distance_distance a d, ?_⟩
    intro b hb
    rw [← hb, distance_distance]

end Ident

end Ident160
