import Ident160.Ident.Basic

/-!
Streams of pseudorandom words and the identifiers drawn from them. The words are those of ChaCha
with eight rounds, a 64-bit block counter from 0 and a zero nonce, each block read from its first
word to its last. `wordAt` is the stream as a function of the position; `Keystream` is a reader
that draws its words one after the other. Five consecutive words make an identifier, the first
one most significant.
-/

namespace Ident160

namespace ChaCha

abbrev Key := Vector UInt32 8

abbrev Block := Vector UInt32 16

def rotate (word places : UInt32) : UInt32 := word <<< places ||| word >>> (32 - places)

def quarterRound (s : Block) (i j k l : Fin 16) : Block :=
  let a := s[i] + s[j]
  let d := rotate (s[l] ^^^ a) 16
  let c := s[k] + d
  let b := rotate (s[j] ^^^ c) 12
  let a := a + b
  let d := rotate (d ^^^ a) 8
  let c := c + d
  let b := rotate (b ^^^ c) 7
  (((s.set i a).set j b).set k c).set l d

/-- One round down the columns and one along the diagonals. -/
def doubleRound (s : Block) : Block :=
  let s := quarterRound s 0 4 8 12
  let s := quarterRound s 1 5 9 13
  let s := quarterRound s 2 6 10 14
  let s := quarterRound s 3 7 11 15
  let s := quarterRound s 0 5 10 15
  let s := quarterRound s 1 6 11 12
  let s := quarterRound s 2 7 8 13
  quarterRound s 3 4 9 14

/-- What a block is stirred from: four fixed words, the key, the counter and a zero nonce. -/
def start (key : Key) (counter : UInt64) : Block :=
  #v[0x61707865, 0x3320646E, 0x79622D32, 0x6B206574,
    key[0], key[1], key[2], key[3], key[4], key[5], key[6], key[7],
    counter.toUInt32, (counter >>> 32).toUInt32, 0, 0]

/-- A block of the stream, after eight rounds. -/
def block (key : Key) (counter : UInt64) : Block :=
  let s := start key counter
  Vector.zipWith (· + ·) (doubleRound (doubleRound (doubleRound (doubleRound s)))) s

def wordAt (key : Key) (position : Nat) : UInt32 :=
  (block key (UInt64.ofNat (position / 16)))[position % 16]

/-- The word for a state of the generator that spreads seeds, and the state after it. -/
def spread (state : UInt64) : UInt32 × UInt64 :=
  let state := state * 6364136223846793005 + 11634580027462260723
  let word := (((state >>> 18) ^^^ state) >>> 27).toUInt32
  let places := (state >>> 59).toUInt32
  (if places = 0 then word else word >>> places ||| word <<< (32 - places), state)

def spreadWords : Nat → UInt64 → List UInt32
  | 0, _ => []
  | n + 1, state =>
    let (word, state) := spread state
    word :: spreadWords n state

theorem length_spreadWords (n : Nat) (state : UInt64) : (spreadWords n state).length = n := by
  induction n generalizing state with
  | zero => rfl
  | succ n ih => simp only [spreadWords, List.length_cons, ih]

def keyOfSeed (seed : UInt64) : Key :=
  ⟨(spreadWords 8 seed).toArray, by simp [length_spreadWords]⟩

end ChaCha

/-- A reader of the word stream: the key, the block to take next, and the words left of the block
before it. -/
structure Keystream where
  key : ChaCha.Key
  counter : UInt64
  pending : List UInt32

namespace Keystream

def ofKey (key : ChaCha.Key) : Keystream := ⟨key, 0, []⟩

def ofSeed (seed : UInt64) : Keystream := ofKey (ChaCha.keyOfSeed seed)

def next (k : Keystream) : UInt32 × Keystream :=
  match k.pending with
  | word :: words => (word, ⟨k.key, k.counter, words⟩)
  | [] =>
    let block := ChaCha.block k.key k.counter
    (block[0], ⟨k.key, k.counter + 1, block.toList.tail⟩)

def nextIdent (k : Keystream) : Ident × Keystream :=
  let (w₄, k) := k.next
  let (w₃, k) := k.next
  let (w₂, k) := k.next
  let (w₁, k) := k.next
  let (w₀, k) := k.next
  (⟨#v[w₄, w₃, w₂, w₁, w₀]⟩, k)

def idents : Nat → Keystream → List Ident
  | 0, _ => []
  | n + 1, k =>
    let (a, k) := k.nextIdent
    a :: idents n k

def skip : Nat → Keystream → Keystream
  | 0, k => k
  | n + 1, k => skip n k.nextIdent.2

/-- The endless stream of identifiers: the one behind `n` others. -/
def identAt (k : Keystream) (n : Nat) : Ident := (k.skip n).nextIdent.1

end Keystream

end Ident160
