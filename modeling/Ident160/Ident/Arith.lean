import Ident160.Ident.Bits

/-!
Arithmetic in the ring of integers modulo 2^160, and unsigned division. Subtraction goes through
negation, and negation through the complement. Division is binary long division: one bit of the
dividend at a time enters the remainder, from the most significant end.
-/

namespace Ident160.Ident

def add (a b : Ident) : Ident :=
  ofLowWords (Words.add a.lowWords b.lowWords)
    (by rw [Words.length_add _ _ (by simp), length_lowWords])

/-- The two's complement: every bit flipped, plus one. -/
def neg (a : Ident) : Ident := a.not.add one

def sub (a b : Ident) : Ident := a.add b.neg

/-- The schoolbook product, cut to 160 bits. A zero operand needs no rows. -/
def mul (a b : Ident) : Ident :=
  if a.isZero || b.isZero then
    zero
  else
    ofLowWords (Words.mul a.lowWords b.lowWords)
      (by rw [Words.length_mul, length_lowWords])

/-! ### Division -/

structure Division where
  quotient : Ident
  remainder : Ident
deriving DecidableEq

def setLowest (a : Ident) : Ident := a.or one

/-- One step of long division: the next bit of the dividend enters the remainder, and the divisor
is taken off if it fits. -/
def Division.step (divisor : Ident) (state : Division) (next : Bool) : Division :=
  let remainder := state.remainder.shiftLeft 1
  let quotient := state.quotient.shiftLeft 1
  let remainder := if next then remainder.setLowest else remainder
  if atMost divisor remainder then
    ⟨quotient.setLowest, remainder.sub divisor⟩
  else
    ⟨quotient, remainder⟩

/-- The states that long division enters a step with, and the one it ends with. -/
def Division.states (divisor : Ident) : Division → List Bool → List Division
  | state, [] => [state]
  | state, next :: bits => state :: states divisor (state.step divisor next) bits

/-- Long division of a number given by its bits, most significant first. -/
def longDivision (divisor : Ident) (bits : List Bool) : Division :=
  bits.foldl (Division.step divisor) ⟨zero, zero⟩

inductive ArithError where
  | divisionByZero
deriving DecidableEq

def ArithError.message : ArithError → String
  | .divisionByZero => "Division by zero"

def divMod (a b : Ident) : Except ArithError Division :=
  if b.isZero then
    .error .divisionByZero
  else if a.less b then
    .ok ⟨zero, a⟩
  else
    .ok (longDivision b a.bitsDown)

def div (a b : Ident) : Except ArithError Ident := (a.divMod b).map (·.quotient)

def mod (a b : Ident) : Except ArithError Ident := (a.divMod b).map (·.remainder)

end Ident160.Ident
