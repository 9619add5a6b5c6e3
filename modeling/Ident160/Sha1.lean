import Ident160.Ident.Basic

/-!
The SHA-1 digest. The message is padded to whole blocks of sixteen words, and each block stirs a
state of five words in eighty rounds. The five words of the last state are the digest, which
makes it an identifier.
-/

namespace Ident160.Sha1

structure State where
  a : UInt32
  b : UInt32
  c : UInt32
  d : UInt32
  e : UInt32
deriving DecidableEq

def State.start : State := ⟨0x67452301, 0xEFCDAB89, 0x98BADCFE, 0x10325476, 0xC3D2E1F0⟩

def State.add (s t : State) : State := ⟨s.a + t.a, s.b + t.b, s.c + t.c, s.d + t.d, s.e + t.e⟩

def rotate (word places : UInt32) : UInt32 := word <<< places ||| word >>> (32 - places)

/-- A message with a one bit, zero bits and its 64-bit length in bits behind it. Its length is a
multiple of 64 bytes. -/
def pad (message : List UInt8) : List UInt8 :=
  let n := message.length
  let bits := UInt64.ofNat (8 * n)
  message ++ 0x80 :: List.replicate ((119 - n % 64) % 64) (0 : UInt8) ++
    Ident.wordBytes (bits >>> 32).toUInt32 ++ Ident.wordBytes bits.toUInt32

/-- Adds `n` words to a schedule that is listed from its last word back. -/
def extendSchedule : Nat → List UInt32 → List UInt32
  | 0, recent => recent
  | n + 1, recent =>
    let word := recent.getD 2 0 ^^^ recent.getD 7 0 ^^^ recent.getD 13 0 ^^^ recent.getD 15 0
    extendSchedule n (rotate word 1 :: recent)

def schedule (block : List UInt32) : List UInt32 := (extendSchedule 64 block.reverse).reverse

def roundMix (t : Nat) (b c d : UInt32) : UInt32 :=
  if t < 20 then (b &&& c ||| ~~~b &&& d) + 0x5A827999
  else if t < 40 then (b ^^^ c ^^^ d) + 0x6ED9EBA1
  else if t < 60 then (b &&& c ||| b &&& d ||| c &&& d) + 0x8F1BBCDC
  else (b ^^^ c ^^^ d) + 0xCA62C1D6

def State.round (s : State) (t : Nat) (word : UInt32) : State :=
  ⟨rotate s.a 5 + roundMix t s.b s.c s.d + s.e + word, s.a, rotate s.b 30, s.c, s.d⟩

def State.absorb (s : State) (block : List UInt32) : State :=
  s.add ((schedule block).zipIdx.foldl (fun s (word, t) => s.round t word) s)

def State.absorbAll (s : State) (words : List UInt32) : State :=
  if words.length < 16 then s else (s.absorb (words.take 16)).absorbAll (words.drop 16)
termination_by words.length
decreasing_by simp only [List.length_drop]; omega

def digest (message : List UInt8) : Ident :=
  let s := State.start.absorbAll (Ident.wordsOfBytes (pad message))
  ⟨#v[s.a, s.b, s.c, s.d, s.e]⟩

def digestText (text : String) : Ident := digest text.toUTF8.toList

end Ident160.Sha1
