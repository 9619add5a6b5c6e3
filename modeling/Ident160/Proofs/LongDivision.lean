import Ident160.Proofs.Shifts
import Ident160.Proofs.Sums

/-!
Long division as Euclidean division. The bits of the dividend that have been read so far are those
of a number, and between two steps the state holds the quotient and the remainder of this number.
Both are at most the number, and it is below 2^159 as long as another bit follows, so no step loses
a bit when it shifts them up, whatever the divisor.
-/

namespace Ident160

open Digit

namespace Ident

/-! ### Bits -/

/-- The bits of `n`, from the highest of `k` places down, put behind a number. -/
theorem extended_testBits (m n k : Nat) :
    extended 2 m ((List.range k).reverse.map fun i => (n.testBit i).toNat) =
      m * 2 ^ k + n % 2 ^ k := by
  induction k generalizing m with
  | zero => simp [extended, Nat.mod_one]
  | succ k ih =>
    have hhead : (m * 2 + (n.testBit k).toNat) * 2 ^ k =
        m * 2 ^ (k + 1) + 2 ^ k * (n / 2 ^ k % 2) := by
      rw [Nat.toNat_testBit, Nat.add_mul, Nat.pow_succ', Nat.mul_assoc, Nat.mul_comm (2 ^ k)]
    rw [List.range_succ, List.reverse_append, List.reverse_singleton, List.singleton_append,
      List.map_cons, extended_cons, ih, hhead, Nat.mod_pow_succ, Nat.add_assoc,
      Nat.add_comm (n % 2 ^ k)]

/-- The significant bits of an identifier are all the bits of its number. -/
theorem extended_bitsDown (a : Ident) : extended 2 0 (a.bitsDown.map Bool.toNat) = a.toNat := by
  have hbits : a.bitsDown.map Bool.toNat =
      (List.range a.bitLength).reverse.map fun i => (a.toNat.testBit i).toNat := by
    rw [bitsDown, List.map_map]
    refine List.map_congr_left fun i hi => ?_
    rw [List.mem_reverse, List.mem_range] at hi
    have hindex : i.toUInt32.toNat = i :=
      UInt32.toNat_ofNat_of_lt (Nat.lt_trans (Nat.lt_of_lt_of_le hi a.bitLength_le) (by decide))
    rw [Function.comp_apply, bit_eq_testBit, hindex]
  rw [hbits, extended_testBits, Nat.zero_mul, Nat.zero_add,
    Nat.mod_eq_of_lt a.lt_two_pow_bitLength]

def entered (a : Ident) (next : Bool) : Ident :=
  if next then (a.shiftLeft 1).setLowest else a.shiftLeft 1

/-- Below 2^159 no bit is lost at the high end. -/
theorem toNat_entered {a : Ident} (h : a.toNat < 2 ^ 159) (next : Bool) :
    (a.entered next).toNat = a.toNat * 2 + next.toNat := by
  have hshift : (a.shiftLeft 1).toNat = a.toNat * 2 := by
    have hfits : a.toNat * 2 < 2 ^ 160 := by omega
    rw [toNat_shiftLeft]
    exact Nat.mod_eq_of_lt hfits
  cases next with
  | false => exact hshift
  | true =>
    have hone : one.toNat = 1 := rfl
    rw [entered, if_pos rfl, setLowest, toNat_or, hshift, hone, Nat.mul_comm]
    exact (Nat.two_pow_add_eq_or_of_lt (i := 1) (by decide) a.toNat).symm

/-! ### Steps -/

/-- A quotient digit is 1 where the divisor fits into the next remainder. -/
theorem div_mod_of_fits {b n t : Nat} (hpos : 0 < b) (ht : t ≤ 1) (h : b ≤ n % b * 2 + t) :
    (n * 2 + t) / b = n / b * 2 + 1 ∧ (n * 2 + t) % b = n % b * 2 + t - b := by
  have hlt : n % b < b := Nat.mod_lt n hpos
  have hn : b * (n / b) + n % b = n := Nat.div_add_mod n b
  rw [Nat.div_mod_unique hpos, Nat.mul_add, ← Nat.mul_assoc]
  omega

/-- Where the divisor does not fit, the bit stays in the remainder. -/
theorem div_mod_of_exceeds {b n t : Nat} (hpos : 0 < b) (h : n % b * 2 + t < b) :
    (n * 2 + t) / b = n / b * 2 ∧ (n * 2 + t) % b = n % b * 2 + t := by
  have hn : b * (n / b) + n % b = n := Nat.div_add_mod n b
  rw [Nat.div_mod_unique hpos, ← Nat.mul_assoc]
  omega

/-- The quotient takes in whether the divisor fits into the remainder with the next bit. -/
theorem Division.step_eq (divisor : Ident) (state : Division) (next : Bool) :
    state.step divisor next =
      if divisor.atMost (state.remainder.entered next) then
        ⟨state.quotient.entered true, (state.remainder.entered next).sub divisor⟩
      else
        ⟨state.quotient.entered false, state.remainder.entered next⟩ := rfl

/-- A state of long division holds the quotient and the remainder of the number that has been read
so far. -/
structure Division.Holds (divisor : Ident) (n : Nat) (state : Division) : Prop where
  quotient_eq : state.quotient.toNat = n / divisor.toNat
  remainder_eq : state.remainder.toNat = n % divisor.toNat

namespace Division.Holds

variable {divisor : Ident} {n : Nat} {state : Division}

theorem start (divisor : Ident) : Holds divisor 0 ⟨zero, zero⟩ :=
  ⟨(Nat.zero_div _).symm, (Nat.zero_mod _).symm⟩

theorem quotient_le (h : Holds divisor n state) : state.quotient.toNat ≤ n := by
  rw [h.quotient_eq]
  exact Nat.div_le_self n _

theorem remainder_le (h : Holds divisor n state) : state.remainder.toNat ≤ n := by
  rw [h.remainder_eq]
  exact Nat.mod_le n _

theorem step (h : Holds divisor n state) (hpos : 0 < divisor.toNat) (next : Bool)
    (hfits : n * 2 + next.toNat < 2 ^ 160) :
    Holds divisor (n * 2 + next.toNat) (state.step divisor next) := by
  -- Neither part is greater than the number read so far, which is at most half of the next one.
  have hquotient : state.quotient.toNat < 2 ^ 159 := by
    have hle := h.quotient_le
    omega
  have hremainder : state.remainder.toNat < 2 ^ 159 := by
    have hle := h.remainder_le
    omega
  have hdigitOne := toNat_entered hquotient true
  have hdigitZero := toNat_entered hquotient false
  have hentered := toNat_entered hremainder next
  rw [h.quotient_eq] at hdigitOne hdigitZero
  rw [h.remainder_eq] at hentered
  rw [Division.step_eq]
  split
  · next hmost =>
    have hle := (atMost_iff _ _).mp hmost
    have hsub := toNat_sub_of_le hle
    rw [hentered] at hle hsub
    obtain ⟨hdiv, hmod⟩ := div_mod_of_fits hpos next.toNat_le hle
    exact ⟨hdigitOne.trans hdiv.symm, hsub.trans hmod.symm⟩
  · next hmore =>
    rw [atMost_iff, hentered, Nat.not_le] at hmore
    obtain ⟨hdiv, hmod⟩ := div_mod_of_exceeds hpos hmore
    exact ⟨hdigitZero.trans hdiv.symm, hentered.trans hmod.symm⟩

/-- Reading on keeps to the quotient and the remainder as long as the number has 160 bits. -/
theorem run (h : Holds divisor n state) (hpos : 0 < divisor.toNat) (bits : List Bool)
    (hfits : extended 2 n (bits.map Bool.toNat) < 2 ^ 160) :
    Holds divisor (extended 2 n (bits.map Bool.toNat))
      (bits.foldl (Division.step divisor) state) := by
  induction bits generalizing n state with
  | nil => exact h
  | cons next bits ih =>
    rw [List.map_cons, extended_cons] at hfits ⊢
    have hnext : n * 2 + next.toNat < 2 ^ 160 :=
      Nat.lt_of_le_of_lt (le_extended (by decide) _ _) hfits
    exact ih (h.step hpos next hnext) hfits

end Division.Holds

/-! ### Division -/

/-- Long division ends with quotient and remainder of the whole dividend. -/
theorem longDivision_holds (a : Ident) {b : Ident} (hpos : 0 < b.toNat) :
    Division.Holds b a.toNat (longDivision b a.bitsDown) := by
  have hrun := (Division.Holds.start b).run hpos a.bitsDown
  rw [extended_bitsDown] at hrun
  exact hrun a.toNat_lt

theorem divMod_of_zero (a : Ident) {b : Ident} (h : b.toNat = 0) :
    a.divMod b = .error .divisionByZero :=
  if_pos ((isZero_iff b).mpr h)

/-- A dividend that is less than the divisor is the remainder, as long division would find. -/
theorem divMod_of_pos (a : Ident) {b : Ident} (hpos : 0 < b.toNat) :
    ∃ d, a.divMod b = .ok d ∧ d.Holds b a.toNat := by
  have hne : ¬ b.isZero = true := by
    rw [isZero_iff]
    omega
  rw [divMod, if_neg hne]
  split
  · next hless =>
    have hlt : a.toNat < b.toNat := (less_iff a b).mp hless
    exact ⟨_, rfl, (Nat.div_eq_of_lt hlt).symm, (Nat.mod_eq_of_lt hlt).symm⟩
  · exact ⟨_, rfl, longDivision_holds a hpos⟩

/-- Division is Euclidean division of the numbers, for every dividend and every divisor but zero.
The quotient alone and the remainder alone are the two parts of it, and all three are refused for
the divisor zero only. -/
theorem division_euclidean (a b : Ident) :
    (a.divMod b = .error .divisionByZero ↔ b.toNat = 0) ∧
      (a.div b = .error .divisionByZero ↔ b.toNat = 0) ∧
      (a.mod b = .error .divisionByZero ↔ b.toNat = 0) ∧
      (b.toNat ≠ 0 → ∃ q r : Ident, a.divMod b = .ok ⟨q, r⟩ ∧ a.div b = .ok q ∧ a.mod b = .ok r ∧
        q.toNat = a.toNat / b.toNat ∧ r.toNat = a.toNat % b.toNat ∧
        a.toNat = q.toNat * b.toNat + r.toNat ∧ r.toNat < b.toNat) := by
  rcases Nat.eq_zero_or_pos b.toNat with hzero | hpos
  · have hdivMod := divMod_of_zero a hzero
    have hdiv : a.div b = .error .divisionByZero := by rw [div, hdivMod]; rfl
    have hmod : a.mod b = .error .divisionByZero := by rw [mod, hdivMod]; rfl
    exact ⟨iff_of_true hdivMod hzero, iff_of_true hdiv hzero, iff_of_true hmod hzero,
      fun hne => absurd hzero hne⟩
  · obtain ⟨⟨q, r⟩, hdivMod, hq, hr⟩ := divMod_of_pos a hpos
    have hdiv : a.div b = .ok q := by rw [div, hdivMod]; rfl
    have hmod : a.mod b = .ok r := by rw [mod, hdivMod]; rfl
    have hne : b.toNat ≠ 0 := Nat.ne_of_gt hpos
    have hsum : a.toNat = q.toNat * b.toNat + r.toNat := by
      rw [hq, hr, Nat.mul_comm, Nat.div_add_mod]
    have hless : r.toNat < b.toNat := by
      rw [hr]
      exact Nat.mod_lt _ hpos
    rw [hdivMod, hdiv, hmod]
    exact ⟨iff_of_false nofun hne, iff_of_false nofun hne, iff_of_false nofun hne,
      fun _ => ⟨q, r, rfl, rfl, rfl, hq, hr, hsum, hless⟩⟩

/-- A divisor with its highest bit set, which the dividend holds once. -/
theorem max_divided_by_high_divisor :
    toNat ⟨#v[0x80000000, 0, 0, 0, 1]⟩ ≠ 0 ∧
      ∃ q r : Ident, max.divMod ⟨#v[0x80000000, 0, 0, 0, 1]⟩ = .ok ⟨q, r⟩ ∧
        q.toNat = 1 ∧ r.toNat = 2 ^ 159 - 2 := by
  have hne : toNat ⟨#v[0x80000000, 0, 0, 0, 1]⟩ ≠ 0 := by decide
  obtain ⟨q, r, hdivMod, -, -, hq, hr, -, -⟩ := (division_euclidean max _).2.2.2 hne
  exact ⟨hne, q, r, hdivMod, hq, hr⟩

end Ident

end Ident160
