import Ident160.Binary64
import Mathlib.Algebra.Order.Ring.Nat
import Mathlib.Data.Nat.Init

/-!
Large seeds as floating-point numbers. From 2^63 up to 2^64 the numbers of 53 bits are the multiples
of 2048, so a seed goes to the nearest of these. The one that is 2^64 itself is cut to the largest
seed again.
-/

namespace Ident160.Binary64

theorem roundHalfEven_mul_right (num den : Nat) {c : Nat} (hc : 0 < c) :
    roundHalfEven (num * c) (den * c) = roundHalfEven num den := by
  have htwice : 2 * (num % den * c) = 2 * (num % den) * c := (Nat.mul_assoc _ _ _).symm
  simp only [roundHalfEven, Nat.mul_div_mul_right _ _ hc, Nat.mul_mod_mul_right, htwice,
    Nat.mul_lt_mul_right hc]

/-- Numbers of `k + 53` bits stand 2 to the power of `k` apart. -/
theorem spacing_eq {units k : Nat} (hlow : 2 ^ (k + 52) ≤ units) (hhigh : units < 2 ^ (k + 53)) :
    spacing units = 2 ^ k := by
  have hne : units ≠ 0 := by
    have hpos := Nat.two_pow_pos (k + 52)
    omega
  have hlog : units.log2 = k + 52 := (Nat.log2_eq_iff hne).mpr ⟨hlow, hhigh⟩
  rw [spacing, hlog, Nat.add_sub_cancel]

/-- A number without exponent and of no more than twenty digits is multiplied out. -/
theorem ofDecimal_integer {n : Nat} (hpos : 0 < n) (h : n < 2 ^ 64) :
    ofDecimal false n 0 = ofRatio false n 1 := by
  have hlength : (Digit.decimal n).length ≤ 20 :=
    (Nat.length_toDigits_le_iff (by decide) (by decide)).mpr (Nat.lt_trans h (by decide))
  have hne : n ≠ 0 := by omega
  have hlarge : ¬ (310 : Int) < 0 + (Digit.decimal n).length := by omega
  have hsmall : ¬ (0 : Int) + (Digit.decimal n).length < -330 := by omega
  simp only [ofDecimal, hne, hlarge, hsmall, if_false, Int.le_refl, if_true, Int.toNat_zero,
    Nat.pow_zero, Nat.mul_one]

/-- The seed that a number becomes in floating point. -/
def roundedSeed (n : Nat) : Nat := min (roundHalfEven n 2048 * 2048) (2 ^ 64 - 1)

theorem roundedSeed_lt (n : Nat) : roundedSeed n < 2 ^ 64 := by
  unfold roundedSeed
  omega

/-- Rounding keeps the multiples of 2048, and the largest seed by chance: it goes up to 2^64, and
is cut again. -/
theorem roundedSeed_eq_iff {n : Nat} (hhigh : n < 2 ^ 64) :
    roundedSeed n = n ↔ 2048 ∣ n ∨ n = 2 ^ 64 - 1 := by
  unfold roundedSeed roundHalfEven
  dsimp only
  split
  · omega
  · split <;> omega

section

-- One unit is 2^-1074. It stays a letter in these proofs, so that nothing multiplies it out.
variable {unit : Nat} (hunit : 2 ^ 1074 = unit)
include hunit

theorem two_pow_eq (e k : Nat) (he : e = k + 1074) : 2 ^ e = 2 ^ k * unit := by
  rw [he, Nat.pow_add, hunit]

theorem unit_pos : 0 < unit := by
  rw [← hunit]
  exact Nat.two_pow_pos 1074

theorem spacing_mul_unit {n k : Nat} (hlow : 2 ^ (k + 52) ≤ n) (hhigh : n < 2 ^ (k + 53)) :
    spacing (n * unit) = 2 ^ k * unit := by
  have hlow' : 2 ^ (k + 1074 + 52) ≤ n * unit := by
    rw [two_pow_eq hunit _ (k + 52) (Nat.add_right_comm _ _ _)]
    exact Nat.mul_le_mul_right unit hlow
  have hhigh' : n * unit < 2 ^ (k + 1074 + 53) := by
    rw [two_pow_eq hunit _ (k + 53) (Nat.add_right_comm _ _ _)]
    exact Nat.mul_lt_mul_of_pos_right hhigh (unit_pos hunit)
  rw [spacing_eq hlow' hhigh', two_pow_eq hunit _ k rfl]

theorem ofRatio_seed {n : Nat} (hlow : 2 ^ 63 ≤ n) (hhigh : n < 2 ^ 64) :
    ofRatio false n 1 = .finite false (roundHalfEven n 2048 * 2048 * unit) := by
  have hround : roundHalfEven n 2048 * 2048 ≤ 2 ^ 64 := by
    simp only [roundHalfEven]
    split
    · omega
    · split <;> omega
  have hunits : roundHalfEven n 2048 * 2048 * unit < 2 ^ 2098 := by
    rw [two_pow_eq hunit 2098 1024 rfl]
    apply Nat.mul_lt_mul_of_pos_right _ (unit_pos hunit)
    calc roundHalfEven n 2048 * 2048 ≤ 2 ^ 64 := hround
      _ < 2 ^ 1024 := Nat.pow_lt_pow_right (a := 2) (m := 64) (n := 1024) (by decide) (by decide)
  rw [ofRatio, hunit, Nat.div_one, Nat.one_mul, spacing_mul_unit hunit (k := 11) hlow hhigh,
    roundHalfEven_mul_right n 2048 (unit_pos hunit), ← Nat.mul_assoc]
  exact if_pos hunits

theorem toUInt64_whole (n : Nat) :
    (finite false (n * unit)).toUInt64 = UInt64.ofNat (min n (2 ^ 64 - 1)) := by
  have hpos := unit_pos hunit
  have hhalf : (2 * (n * unit) + unit) / (2 * unit) = n := by
    rw [show 2 * (n * unit) + unit = 2 * unit * n + unit by ac_rfl, Nat.mul_add_div (by omega),
      Nat.div_eq_of_lt (by omega), Nat.add_zero]
  rw [toUInt64, if_neg Bool.false_ne_true, hunit, two_pow_eq hunit 1075 1 rfl, Nat.pow_one, hhalf]

end

/-- A number of 64 bits comes back from floating point as its rounded seed. -/
theorem toUInt64_ofRatio {n : Nat} (hlow : 2 ^ 63 ≤ n) (hhigh : n < 2 ^ 64) :
    (ofRatio false n 1).toUInt64 = UInt64.ofNat (roundedSeed n) := by
  rw [ofRatio_seed rfl hlow hhigh, toUInt64_whole rfl, roundedSeed]

end Ident160.Binary64
