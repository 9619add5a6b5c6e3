import Ident160.Digit

/-!
Texts in TOML: between double quotes, where a backslash starts an escape, or between single
quotes, where nothing does; and over several lines between three quotes of a kind. A quote may
stand in such a long text, and up to two of them directly in front of its end.
-/

namespace Ident160.Document.Toml

def isSpace (c : Char) : Bool := c = ' ' || c = '\t'

/-- The characters that may stand in a text or a comment: no controls but the tab. -/
def isTextChar (c : Char) : Bool := c = '\t' || (0x20 ≤ c.toNat && c.toNat ≠ 0x7F)

def takeNewline : List Char → Option (List Char)
  | '\n' :: cs => some cs
  | '\r' :: '\n' :: cs => some cs
  | _ => none

def charOfHex (digits : List Char) : Option Char := do
  let digits ← digits.mapM (Digit.value? 16)
  let n := Digit.ofDigits 16 digits
  if h : n.isValidChar then some (Char.ofNatAux n h) else none

def shortEscape : Char → Option Char
  | 'b' => some '\x08'
  | 't' => some '\t'
  | 'n' => some '\n'
  | 'f' => some '\x0c'
  | 'r' => some '\r'
  | 'e' => some '\x1b'
  | '"' => some '"'
  | '\\' => some '\\'
  | _ => none

def takeCodePoint (n : Nat) (cs : List Char) : Option (Char × List Char) :=
  if cs.length < n then none else (charOfHex (cs.take n)).map fun c => (c, cs.drop n)

def takeEscape : List Char → Option (Char × List Char)
  | 'x' :: cs => takeCodePoint 2 cs
  | 'u' :: cs => takeCodePoint 4 cs
  | 'U' :: cs => takeCodePoint 8 cs
  | c :: cs => (shortEscape c).map fun c => (c, cs)
  | [] => none

/-- Takes the rest of a text in double quotes, with its end. `fuel` bounds its characters. -/
def takeBasic : Nat → List Char → Option (List Char × List Char)
  | 0, _ => none
  | _, [] => none
  | _, '"' :: cs => some ([], cs)
  | fuel + 1, '\\' :: cs => do
    let (c, cs) ← takeEscape cs
    let (text, rest) ← takeBasic fuel cs
    return (c :: text, rest)
  | fuel + 1, c :: cs =>
    if isTextChar c then (takeBasic fuel cs).map fun (text, rest) => (c :: text, rest) else none

def takeLiteral : List Char → Option (List Char × List Char)
  | [] => none
  | '\'' :: cs => some ([], cs)
  | c :: cs =>
    if isTextChar c then (takeLiteral cs).map fun (text, rest) => (c :: text, rest) else none

/-- What a long text holds in front of its end, if its end stands here: up to two quotes, and
then three. -/
def takeLongEnd (quote : Char) (cs : List Char) : Option (List Char × List Char) :=
  let count := (cs.takeWhile (· = quote)).length
  if count < 3 then none
  else
    let inner := min (count - 3) 2
    some (List.replicate inner quote, cs.drop (inner + 3))

def skipWhite (cs : List Char) : List Char :=
  cs.dropWhile fun c => isSpace c || c = '\n' || c = '\r'

def takeLongChar : List Char → Option (List Char × List Char)
  | '\n' :: cs => some (['\n'], cs)
  | '\r' :: '\n' :: cs => some (['\r', '\n'], cs)
  | c :: cs => if isTextChar c then some ([c], cs) else none
  | [] => none

/-- Takes one piece of a long text in double quotes. A backslash at the end of a line joins it
with the next line that is not blank. -/
def takeLongBasicPiece : List Char → Option (List Char × List Char)
  | '\\' :: cs =>
    match takeNewline (cs.dropWhile isSpace) with
    | some rest => some ([], skipWhite rest)
    | none => (takeEscape cs).map fun (c, rest) => ([c], rest)
  | cs => takeLongChar cs

/-- Takes the rest of a long text, with its end, piece by piece. `fuel` bounds the pieces. -/
def takeLong (quote : Char) (takePiece : List Char → Option (List Char × List Char)) :
    Nat → List Char → Option (List Char × List Char)
  | 0, _ => none
  | fuel + 1, cs =>
    match takeLongEnd quote cs with
    | some result => some result
    | none => do
      let (piece, cs) ← takePiece cs
      let (text, rest) ← takeLong quote takePiece fuel cs
      return (piece ++ text, rest)

/-- A long text starts behind the end of the line that opens it. -/
def skipFirstNewline (cs : List Char) : List Char := (takeNewline cs).getD cs

def takeShortText : List Char → Option (List Char × List Char)
  | '"' :: cs => takeBasic (cs.length + 1) cs
  | '\'' :: cs => takeLiteral cs
  | _ => none

def takeText : List Char → Option (List Char × List Char)
  | '"' :: '"' :: '"' :: cs => takeLong '"' takeLongBasicPiece (cs.length + 1) (skipFirstNewline cs)
  | '\'' :: '\'' :: '\'' :: cs => takeLong '\'' takeLongChar (cs.length + 1) (skipFirstNewline cs)
  | cs => takeShortText cs

end Ident160.Document.Toml
