import Ident160.Ident.Basic

/-!
Identifiers as rows of 160 bits. Bit 0 is the least significant one, and no identifier has a bit
at 160 or above. The XOR distance of two identifiers, with the order it induces on a list, is
here too.
-/

namespace Ident160.Ident

/-- The number of significant bits of a word: the position of its highest bit, counted from 1. -/
def wordBitLength (word : UInt32) : Nat := if word = 0 then 0 else word.toNat.log2 + 1

/-- Bit `i` of a word, for `i` < 32. -/
def wordBit (word i : UInt32) : Bool := (word >>> i) &&& 1 == 1

/-- Bit `i` of an identifier, counted from the least significant end. -/
def bit (a : Ident) (i : UInt32) : Bool :=
  if i < 160 then
    wordBit (a.words[4 - (i / 32).toNat]) (i % 32)
  else
    false

/-- The bit length of words that are listed most significant first: what the first nonzero word
contributes, and 32 for each word below it. -/
def highBitLength : List UInt32 → Nat
  | [] => 0
  | word :: words =>
    if word = 0 then highBitLength words else wordBitLength word + 32 * words.length

/-- The position of the highest bit set, counted from 1; 0 for zero. -/
def bitLength (a : Ident) : Nat := highBitLength a.words.toList

/-- The significant bits of an identifier, most significant first. -/
def bitsDown (a : Ident) : List Bool :=
  (List.range a.bitLength).reverse.map fun i => a.bit i.toUInt32

def and (a b : Ident) : Ident := ⟨Vector.zipWith (· &&& ·) a.words b.words⟩

def or (a b : Ident) : Ident := ⟨Vector.zipWith (· ||| ·) a.words b.words⟩

def xor (a b : Ident) : Ident := ⟨Vector.zipWith (· ^^^ ·) a.words b.words⟩

def not (a : Ident) : Ident := ⟨a.words.map (~~~ ·)⟩

def distance (a b : Ident) : Ident := a.xor b

/-- The identifiers by ascending distance to `target`; equally distant ones keep their places. -/
def sortByDistance (target : Ident) (ids : List Ident) : List Ident :=
  ids.mergeSort fun a b => atMost (a.distance target) (b.distance target)

/-! ### Shifts -/

/-- The shift up by `places`, filled with zeros. A shift by 160 places or more leaves nothing. -/
def shiftLeft (a : Ident) (places : UInt32) : Ident :=
  if 160 ≤ places then
    zero
  else
    ofLowWords (Words.shiftLeft (Words.wordGap places) (Words.bitGap places) a.lowWords)
      (by rw [Words.length_shiftLeft, length_lowWords])

/-- The shift down by `places`, filled with zeros. A shift by 160 places or more leaves nothing. -/
def shiftRight (a : Ident) (places : UInt32) : Ident :=
  if 160 ≤ places then
    zero
  else
    ofLowWords (Words.shiftRight (Words.wordGap places) (Words.bitGap places) a.lowWords)
      (by rw [Words.length_shiftRight, length_lowWords])

end Ident160.Ident
