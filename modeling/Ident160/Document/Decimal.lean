import Ident160.Binary64

/-!
Decimal numbers as documents and variables write them: an optional sign, digits with a point
among them, and an exponent. `split` takes such a text apart, and each notation then says which
of the parts it wants.
-/

namespace Ident160.Document.Decimal

/-- The parts of a decimal number. A part that is not marked is `none`. -/
structure Parts where
  negative : Bool
  whole : List Char
  fraction : Option (List Char)
  exponent : Option (List Char)

def isExponentMark (c : Char) : Bool := c = 'e' || c = 'E'

def takeSign : List Char → Bool × List Char
  | '+' :: cs => (false, cs)
  | '-' :: cs => (true, cs)
  | cs => (false, cs)

def splitAtFirst (inClass : Char → Bool) (cs : List Char) : List Char × Option (List Char) :=
  let front := cs.takeWhile fun c => !inClass c
  match cs.dropWhile fun c => !inClass c with
  | [] => (front, none)
  | _ :: rest => (front, some rest)

/-- Takes a text apart at its sign, its first exponent mark and the point in front of that. -/
def split (cs : List Char) : Parts :=
  let (negative, cs) := takeSign cs
  let (mantissa, exponent) := splitAtFirst isExponentMark cs
  let (whole, fraction) := splitAtFirst (· = '.') mantissa
  ⟨negative, whole, fraction, exponent⟩

def natOf (digits : List Char) : Nat :=
  Digit.ofDigits 10 (digits.map fun c => c.toNat - 48)

def intOf (cs : List Char) : Int :=
  let (negative, digits) := takeSign cs
  if negative then -natOf digits else natOf digits

/-- The number of parts whose digits are known to be sound. -/
def Parts.binary64 (p : Parts) : Binary64 :=
  let fraction := p.fraction.getD []
  let exponent := intOf (p.exponent.getD [])
  .ofDecimal p.negative (natOf (p.whole ++ fraction)) (exponent - fraction.length)

def isDigits (cs : List Char) : Bool := !cs.isEmpty && cs.all Char.isDigit

def isSignedDigits (cs : List Char) : Bool := isDigits (takeSign cs).2

end Ident160.Document.Decimal
