import Ident160.Digit

/-!
Reading integers of a fixed width. One sign may stand in front, a minus only where negative
numbers exist. The digits are taken from the left, and the first thing wrong is the error: a
character that is no digit, or the digit with which the number leaves its range.
-/

namespace Ident160.Numeral

inductive Fault where
  | empty
  | invalidDigit
  | tooLarge
  | tooSmall
deriving DecidableEq

def Fault.message : Fault → String
  | .empty => "cannot parse integer from empty string"
  | .invalidDigit => "invalid digit found in string"
  | .tooLarge => "number too large to fit in target type"
  | .tooSmall => "number too small to fit in target type"

/-- Reads digits onto `n`. A number of `limit` or more is the fault `outside`. -/
def readDigits (radix limit : Nat) (outside : Fault) : Nat → List Char → Except Fault Nat
  | n, [] => .ok n
  | n, c :: cs =>
    match Digit.value? radix c with
    | none => .error .invalidDigit
    | some d =>
      if n * radix + d < limit then
        readDigits radix limit outside (n * radix + d) cs
      else
        .error outside

/-- Reads a natural number below `limit`, with an optional plus sign. -/
def readNat (radix limit : Nat) : List Char → Except Fault Nat
  | [] => .error .empty
  | ['+'] => .error .invalidDigit
  | '+' :: cs => readDigits radix limit .tooLarge 0 cs
  | cs => readDigits radix limit .tooLarge 0 cs

/-- Reads a decimal integer from `-limit` up to `limit - 1`, with an optional sign. -/
def readInt (limit : Nat) : List Char → Except Fault Int
  | [] => .error .empty
  | ['+'] | ['-'] => .error .invalidDigit
  | '+' :: cs => (readDigits 10 limit .tooLarge 0 cs).map Int.ofNat
  | '-' :: cs => (readDigits 10 (limit + 1) .tooSmall 0 cs).map fun n => -Int.ofNat n
  | cs => (readDigits 10 limit .tooLarge 0 cs).map Int.ofNat

def readWord (radix : Nat) (cs : List Char) : Except Fault UInt32 :=
  (readNat radix (2 ^ 32) cs).map UInt32.ofNat

def readUInt64 (cs : List Char) : Except Fault UInt64 :=
  (readNat 10 (2 ^ 64) cs).map UInt64.ofNat

def readInt64 (cs : List Char) : Except Fault Int := readInt (2 ^ 63) cs

end Ident160.Numeral
