import Ident160.Inspector

/-!
How values appear on a terminal: a description, with the most significant limb in bold and the
limbs below it if wanted, and the items of a numbered list. A description cuts its digits at
fixed offsets of their UTF-8 form, and there is none if a cut falls outside the text or into a
character.
-/

namespace Ident160.Listing

/-- Cuts a text behind its first `size` bytes in UTF-8. -/
def cutAt : Nat → List Char → Option (List Char × List Char)
  | 0, text => some ([], text)
  | _ + 1, [] => none
  | size + 1, c :: text =>
    if c.utf8Size ≤ size + 1 then
      (cutAt (size + 1 - c.utf8Size) text).map fun (head, rest) => (c :: head, rest)
    else
      none

def pieces : Nat → List Char → Option (List (List Char))
  | 0, _ => some []
  | n + 1, text => do
    let (head, rest) ← cutAt 8 text
    let tail ← pieces n rest
    return head :: tail

def padLeft (width : Nat) (text : List Char) : List Char :=
  List.replicate (width - text.length) ' ' ++ text

/-- The first line: the digits, with the first eight bytes in bold. -/
def headLine (head rest : List Char) : List Char :=
  "\x1b[1m".toList ++ head ++ "\x1b[22m".toList ++ rest ++ ['\n']

def limbLine (i : Nat) (piece : List Char) (word : UInt32) : List Char :=
  "  limb[".toList ++ Digit.decimal i ++ "]  ".toList ++ piece ++ "  ".toList ++
    padLeft 10 (Digit.decimal word.toNat) ++ ['\n']

def ruler : List Char := List.replicate 40 '─' ++ ['\n']

def bitLengthLine (n : Nat) : List Char :=
  "  bit length: ".toList ++ Digit.decimal n ++ ['\n']

def limbLines (pieces : List (List Char)) (d : Description) : List Char :=
  ruler ++
    ((pieces.zip d.words.toList).zipIdx.flatMap fun ((piece, word), i) => limbLine i piece word) ++
    bitLengthLine d.bitLength

def describe (d : Description) (showLimbs : Bool) : Option String := do
  let (head, rest) ← cutAt 8 d.hex.toList
  if showLimbs then
    let pieces ← pieces 5 d.hex.toList
    return String.ofList (headLine head rest ++ limbLines pieces d)
  else
    return String.ofList (headLine head rest)

/-- An item of a numbered list; `index` counts from zero and the number from one. -/
def item (index : Nat) (value : String) : String :=
  Digit.decimalText (index + 1) ++ ". " ++ value ++ "\n"

/-- The items of a list from number `index` + 1 on. -/
def itemsFrom : Nat → List String → String
  | _, [] => ""
  | index, value :: values => item index value ++ itemsFrom (index + 1) values

def items (values : List String) : String := itemsFrom 0 values

end Ident160.Listing
