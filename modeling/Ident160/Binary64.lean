import Ident160.Digit

/-!
Binary floating-point numbers of 64 bits, as exact values. A finite number is a multiple of
2^-1074 with at most 53 significant bits, and is held as that multiple. Ratios are rounded to the
nearest number, a tie to the one with an even last bit, and what is too large becomes infinite.
-/

namespace Ident160

/-- A floating-point number. A finite one has the value `units` / 2^1074 under its sign. -/
inductive Binary64 where
  | nan
  | infinite (negative : Bool)
  | finite (negative : Bool) (units : Nat)
deriving DecidableEq

namespace Binary64

/-- The nearest integer to `num / den`, a tie going to the even neighbour. -/
def roundHalfEven (num den : Nat) : Nat :=
  let floor := num / den
  let twice := 2 * (num % den)
  if twice < den then floor
  else if den < twice then floor + 1
  else floor + floor % 2

/-- The spacing of numbers at a magnitude of `units`: one unit up to 53 bits, and as much as
keeps 53 bits above that. -/
def spacing (units : Nat) : Nat := 2 ^ (units.log2 - 52)

/-- The number nearest to `num / den`. -/
def ofRatio (negative : Bool) (num den : Nat) : Binary64 :=
  let gap := spacing (num * 2 ^ 1074 / den)
  let units := roundHalfEven (num * 2 ^ 1074) (den * gap) * gap
  if units < 2 ^ 2098 then .finite negative units else .infinite negative

/-- The number nearest to `n` times ten to the power of `exponent`. Where the exponent alone
decides, beyond the largest number or below the smallest, nothing is multiplied out. -/
def ofDecimal (negative : Bool) (n : Nat) (exponent : Int) : Binary64 :=
  let magnitude := exponent + (Digit.decimal n).length
  if n = 0 then .finite negative 0
  else if 310 < magnitude then .infinite negative
  else if magnitude < -330 then .finite negative 0
  else if 0 ≤ exponent then ofRatio negative (n * 10 ^ exponent.toNat) 1
  else ofRatio negative n (10 ^ (-exponent).toNat)

def isFinite : Binary64 → Bool
  | .finite _ _ => true
  | _ => false

def isZero : Binary64 → Bool
  | .finite _ units => units = 0
  | _ => false

/-- The nearest unsigned 64-bit integer, a tie going away from zero. Numbers out of range go to
the nearer end of it, and what is no number to zero. -/
def toUInt64 : Binary64 → UInt64
  | .nan => 0
  | .infinite negative => if negative then 0 else UInt64.ofNat (2 ^ 64 - 1)
  | .finite negative units =>
    if negative then 0
    else UInt64.ofNat (min ((2 * units + 2 ^ 1074) / 2 ^ 1075) (2 ^ 64 - 1))

end Binary64

end Ident160
