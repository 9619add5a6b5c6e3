/-!
Digits of positional notation up to radix 16, in ASCII. `ofDigits` is the number that digits
denote, `fixed` writes a number with a given count of digits, and `value?` reads one digit in
either letter case.
-/

-- Powers of natural numbers are the core ones, also where Mathlib's monoids are in scope.
attribute [default_instance 20000, instance (1100)] instPowNat

namespace Ident160

inductive LetterCase where
  | lower
  | upper
deriving DecidableEq

namespace Digit

def char (letters : LetterCase) (d : Nat) : Char :=
  if d < 10 then
    Char.ofNat (48 + d)
  else
    match letters with
    | .lower => Char.ofNat (87 + d)
    | .upper => Char.ofNat (55 + d)

/-- The value of a digit of the given radix, at most 16, in either case. -/
def value? (radix : Nat) (c : Char) : Option Nat :=
  let d :=
    if '0' ≤ c ∧ c ≤ '9' then c.toNat - 48
    else if 'a' ≤ c ∧ c ≤ 'f' then c.toNat - 87
    else if 'A' ≤ c ∧ c ≤ 'F' then c.toNat - 55
    else 16
  if d < radix ∧ d < 16 then some d else none

def isHex (c : Char) : Bool := (value? 16 c).isSome

/-- The number written by digits in the given radix, most significant first. -/
def ofDigits (radix : Nat) (digits : List Nat) : Nat :=
  digits.foldl (fun n d => n * radix + d) 0

/-- The last `width` digits of a number, most significant first. -/
def fixed (radix : Nat) : Nat → Nat → List Nat
  | 0, _ => []
  | width + 1, n => fixed radix width (n / radix) ++ [n % radix]

theorem length_fixed (radix width n : Nat) : (fixed radix width n).length = width := by
  induction width generalizing n with
  | zero => rfl
  | succ width ih => simp only [fixed, List.length_append, ih, List.length_cons, List.length_nil]

/-- The digits of a number in radix 16, without leading zeros. -/
def hex (n : Nat) : List Char := Nat.toDigits 16 n

/-- The digits of a number in radix 10, without leading zeros. -/
def decimal (n : Nat) : List Char := Nat.toDigits 10 n

def decimalText (n : Nat) : String := String.ofList (decimal n)

end Digit

end Ident160
