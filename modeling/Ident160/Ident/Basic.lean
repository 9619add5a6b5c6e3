import Ident160.Words

/-!
Identifiers: 160-bit values held as five 32-bit words, most significant word first. This module
has the type, its constants, its views as a number, as words and as bytes, and its order, which
compares the words from the most significant end.
-/

namespace Ident160

structure Ident where
  /-- The five words, most significant first. -/
  words : Vector UInt32 5
deriving DecidableEq

namespace Ident

def hexSize : Nat := 40

def byteSize : Nat := 20

def bitSize : Nat := 160

/-- The words of an identifier, least significant first. -/
def lowWords (a : Ident) : List UInt32 := a.words.toList.reverse

@[simp] theorem length_lowWords (a : Ident) : a.lowWords.length = 5 := by
  simp [lowWords]

def ofLowWords (words : List UInt32) (h : words.length = 5) : Ident :=
  ⟨⟨words.reverse.toArray, by simp [h]⟩⟩

@[simp] theorem lowWords_ofLowWords (words : List UInt32) (h : words.length = 5) :
    (ofLowWords words h).lowWords = words := by
  simp [lowWords, ofLowWords]

def ofWords? (words : List UInt32) : Option Ident :=
  if h : words.length = 5 then some ⟨⟨words.toArray, by simp [h]⟩⟩ else none

def toNat (a : Ident) : Nat := Words.toNat a.lowWords

@[simp] theorem toNat_ofLowWords (words : List UInt32) (h : words.length = 5) :
    (ofLowWords words h).toNat = Words.toNat words := by
  rw [toNat, lowWords_ofLowWords]

theorem toNat_lt (a : Ident) : a.toNat < 2 ^ 160 := by
  have h := Words.toNat_lt a.lowWords
  rw [length_lowWords] at h
  exact h

/-! ### Constants and integers -/

def zero : Ident := ⟨#v[0, 0, 0, 0, 0]⟩

def one : Ident := ⟨#v[0, 0, 0, 0, 1]⟩

def max : Ident := ⟨#v[0xFFFFFFFF, 0xFFFFFFFF, 0xFFFFFFFF, 0xFFFFFFFF, 0xFFFFFFFF]⟩

instance : Inhabited Ident := ⟨zero⟩

/-- The identifier that denotes a 64-bit number. Narrower integers widen to this. -/
def ofUInt64 (n : UInt64) : Ident := ⟨#v[0, 0, 0, (n >>> 32).toUInt32, n.toUInt32]⟩

def isZero (a : Ident) : Bool := a.words.all (· == 0)

/-! ### Bytes -/

/-- The four bytes of a word, most significant first. -/
def wordBytes (word : UInt32) : List UInt8 :=
  [(word >>> 24).toUInt8, (word >>> 16).toUInt8, (word >>> 8).toUInt8, word.toUInt8]

def wordOfBytes (b₃ b₂ b₁ b₀ : UInt8) : UInt32 :=
  b₃.toUInt32 <<< 24 ||| b₂.toUInt32 <<< 16 ||| b₁.toUInt32 <<< 8 ||| b₀.toUInt32

/-- Groups bytes into words, both most significant first; one to three last bytes are dropped. -/
def wordsOfBytes : List UInt8 → List UInt32
  | b₃ :: b₂ :: b₁ :: b₀ :: rest => wordOfBytes b₃ b₂ b₁ b₀ :: wordsOfBytes rest
  | _ => []

/-- The twenty bytes of an identifier, most significant first. -/
def bytes (a : Ident) : List UInt8 := a.words.toList.flatMap wordBytes

theorem length_wordsOfBytes (data : List UInt8) :
    (wordsOfBytes data).length = data.length / 4 := by
  fun_induction wordsOfBytes data with
  | case1 b₃ b₂ b₁ b₀ rest ih =>
    simp only [List.length_cons, ih]
    omega
  | case2 data hshort =>
    match data, hshort with
    | [], _ | [_], _ | [_, _], _ | [_, _, _], _ => simp
    | b₃ :: b₂ :: b₁ :: b₀ :: rest, hshort => exact absurd rfl (hshort b₃ b₂ b₁ b₀ rest)

def ofBytes (data : List UInt8) (h : data.length = byteSize) : Ident :=
  ⟨⟨(wordsOfBytes data).toArray, by simp [length_wordsOfBytes, h, byteSize]⟩⟩

def ofBytes? (data : List UInt8) : Option Ident :=
  if h : data.length = byteSize then some (ofBytes data h) else none

/-! ### Order -/

/-- Identifiers are compared word by word from the most significant end. -/
instance : Ord Ident := ⟨fun a b => Words.compareHigh a.words.toList b.words.toList⟩

def less (a b : Ident) : Bool := (compare a b).isLT

def atMost (a b : Ident) : Bool := (compare a b).isLE

/-- The identifiers in ascending order; equal ones keep their places. -/
def sort (ids : List Ident) : List Ident := ids.mergeSort atMost

end Ident

end Ident160
