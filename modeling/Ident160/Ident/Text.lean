import Ident160.HexBytes
import Ident160.Ident.Basic
import Ident160.Text.Quoted

/-!
The written form of identifiers: 40 hexadecimal digits, eight for each word, most significant
word first. Rendering knows both letter cases; reading accepts either, and mixtures. A text that
is refused is first blamed for its length, then for a character beyond ASCII, then for one that
is no digit.
-/

namespace Ident160

/-! ### Rendering -/

def wordDigits (letters : LetterCase) (word : UInt32) : List Char :=
  (Digit.fixed 16 8 word.toNat).map (Digit.char letters)

/-- The digits of words that are listed most significant first. -/
def wordsDigits (letters : LetterCase) (words : List UInt32) : List Char :=
  words.flatMap (wordDigits letters)

/-- Five words as an identifier is shown in memory: 40 uppercase digits. -/
def renderWords (words : Vector UInt32 5) : String :=
  String.ofList (wordsDigits .upper words.toList)

def appendWords (text : String) (words : Vector UInt32 5) : String :=
  text ++ String.ofList (wordsDigits .upper words.toList)

/-- Why words cannot be rendered: there are not five of them. -/
structure WordCountError where
  actual : Nat
deriving DecidableEq

def WordCountError.message (e : WordCountError) : String :=
  "Invalid input: expected 5 limbs, got " ++ Digit.decimalText e.actual

def renderWordList (words : List UInt32) : Except WordCountError String :=
  match Ident.ofWords? words with
  | some a => .ok (renderWords a.words)
  | none => .error ⟨words.length⟩

/-- A way of rendering words, for callers that choose one at run time. -/
structure WordRenderer where
  five : Vector UInt32 5 → String
  list : List UInt32 → Except WordCountError String

def hexRenderer : WordRenderer := ⟨renderWords, renderWordList⟩

namespace Ident

structure Layout where
  marked : Bool := false
  width : Nat := 0
  filler : Char := ' '

def Layout.mark (layout : Layout) : String := if layout.marked then "0x" else ""

/-- The uppercase digits. An identifier is written at its own width whatever the layout says. -/
def upperHex (a : Ident) (layout : Layout) : String := appendWords layout.mark a.words

/-- The lowercase digits. An identifier is written at its own width whatever the layout says. -/
def lowerHex (a : Ident) (layout : Layout) : String :=
  layout.mark ++ String.ofList (wordsDigits .lower a.words.toList)

/-- The plain form: lowercase digits, without a mark whatever the layout says. -/
def display (a : Ident) (_layout : Layout) : String := a.lowerHex {}

instance : ToString Ident := ⟨fun a => a.display {}⟩

def toUpperHex (a : Ident) : String := renderWords a.words

def describeWords (a : Ident) : String :=
  let words := a.words.toList.map fun word => Digit.decimalText word.toNat
  "UInt160 \x7b limbs: [" ++ ", ".intercalate words ++ "] \x7d"

/-! ### Reading -/

inductive ReadError where
  /-- The text does not have 40 characters, but this many. -/
  | badLength (length : Nat)
  /-- The text has 40 characters, and this one is no hexadecimal digit. -/
  | badCharacter (c : Char)
deriving DecidableEq

def ReadError.message : ReadError → String
  | .badLength length =>
    "Invalid hex string: expected 40 characters, got " ++ Digit.decimalText length
  | .badCharacter c => "Invalid hex string: bad character " ++ Text.quoteChar c

/-- A character beyond ASCII. The decoder would report one of its bytes instead. -/
def isBeyondAscii (c : Char) : Bool := 128 ≤ c.toNat

def readChars (cs : List Char) : Except ReadError Ident :=
  if cs.length ≠ hexSize then
    .error (.badLength cs.length)
  else
    match cs.find? isBeyondAscii with
    | some c => .error (.badCharacter c)
    | none =>
      match HexBytes.decode byteSize (cs.flatMap String.utf8EncodeChar) with
      | .ok ⟨bytes, length⟩ => .ok (ofBytes bytes length)
      | .error (.badDigit c _) => .error (.badCharacter c)
      | .error .oddLength | .error .wrongLength => .error (.badLength cs.length)

/-- Reads an identifier: exactly 40 hexadecimal digits in either case. -/
def read (text : String) : Except ReadError Ident := readChars text.toList

end Ident

end Ident160
