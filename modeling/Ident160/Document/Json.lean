import Ident160.Document.Decimal
import Ident160.Document.Value

/-!
Reading JSON documents, whose root must be an object. Where a name is repeated in an object the
last value counts. A number without fraction and exponent that fits 64 bits is an integer. Any
other number is worked out in floating point: its leading digits, as far as they fit 64 bits, are
rounded first, and then multiplied or divided by a rounded power of ten.
-/

namespace Ident160.Document.Json

def isSpace (c : Char) : Bool := c = ' ' || c = '\t' || c = '\n' || c = '\r'

def skipSpaces (cs : List Char) : List Char := cs.dropWhile isSpace

/-! ### Numbers -/

/-- Takes digits onto `n` as long as it fits 64 bits. What is left starts with the first digit
that does not fit, or with no digit. -/
def gather : Nat → List Char → Nat × List Char
  | n, [] => (n, [])
  | n, d :: ds =>
    let next := 10 * n + (d.toNat - 48)
    if next < 2 ^ 64 then gather next ds else (n, d :: ds)

/-- The leading digits of a number and the power of ten that they stand at. Further digits of the
whole part move the point, and further digits of the fraction are lost. -/
def significand (whole fraction : List Char) : Nat × Int :=
  match gather 0 whole with
  | (n, []) =>
    let (n, lost) := gather n fraction
    (n, -((fraction.length - lost.length : Nat) : Int))
  | (n, lost) => (n, lost.length)

def productOf (negative : Bool) (a b : Nat) : Binary64 :=
  .ofRatio negative (a * b) (2 ^ 1074 * 2 ^ 1074)

def quotientOf (negative : Bool) (a b : Nat) : Binary64 := .ofRatio negative a b

def unitsOf : Binary64 → Nat
  | .finite _ units => units
  | _ => 0

/-- Ten to a power up to 308, rounded, in units. -/
def tenToThe (n : Nat) : Nat := unitsOf (.ofRatio false (10 ^ n) 1)

/-- `units` times ten to a power, rounded at every step; a power below -308 takes several. -/
def scale (negative : Bool) : Nat → Nat → Int → Option Binary64
  | 0, _, _ => none
  | fuel + 1, units, exponent =>
    if units = 0 then some (.finite negative 0)
    else if 308 < exponent then none
    else if 0 ≤ exponent then
      let x := productOf negative units (tenToThe exponent.toNat)
      if x.isFinite then some x else none
    else if -308 ≤ exponent then
      some (quotientOf negative units (tenToThe (-exponent).toNat))
    else
      scale negative fuel (unitsOf (quotientOf negative units (tenToThe 308))) (exponent + 308)

/-- The floating-point number of sound parts. There is none beyond the largest. -/
def floatOf (p : Decimal.Parts) : Option Binary64 :=
  let (n, exponent) := significand p.whole (p.fraction.getD [])
  let exponent := exponent + Decimal.intOf (p.exponent.getD [])
  scale p.negative 8 (unitsOf (.ofRatio false n 1)) exponent

def numberOf (p : Decimal.Parts) : Option Value :=
  let n := Decimal.natOf p.whole
  if p.fraction.isNone && p.exponent.isNone then
    if !p.negative && n < 2 ^ 64 then some (.integer n)
    else if p.negative && n ≠ 0 && n ≤ 2 ^ 63 then some (.integer (-n))
    else (floatOf p).map .float
  else
    (floatOf p).map .float

def isNumberChar (c : Char) : Bool :=
  c.isDigit || c = '+' || c = '-' || c = '.' || c = 'e' || c = 'E'

def isWhole : List Char → Bool
  | ['0'] => true
  | '0' :: _ => false
  | cs => Decimal.isDigits cs

def takeNumber (cs : List Char) : Option (Value × List Char) := do
  let run := cs.takeWhile isNumberChar
  let p := Decimal.split run
  let sound := run.head? ≠ some '+' && isWhole p.whole && p.fraction.all Decimal.isDigits &&
    p.exponent.all Decimal.isSignedDigits
  if sound then
    let v ← numberOf p
    return (v, cs.dropWhile isNumberChar)
  else
    none

/-! ### Texts -/

def unitOf (digits : List Char) : Option Nat :=
  (digits.mapM (Digit.value? 16)).map (Digit.ofDigits 16)

def shortEscape : Char → Option Char
  | '"' => some '"'
  | '\\' => some '\\'
  | '/' => some '/'
  | 'b' => some '\x08'
  | 'f' => some '\x0c'
  | 'n' => some '\n'
  | 'r' => some '\r'
  | 't' => some '\t'
  | _ => none

def isHighUnit (n : Nat) : Bool := 0xD800 ≤ n && n < 0xDC00

def charOfUnits (first : Nat) (second : Option Nat) : Option Char :=
  match second with
  | none => if h : first.isValidChar then some (Char.ofNatAux first h) else none
  | some low =>
    if isHighUnit first && 0xDC00 ≤ low && low < 0xE000 then
      some (Char.ofNat (0x10000 + (first - 0xD800) * 0x400 + (low - 0xDC00)))
    else
      none

def consText (c : Option Char) (rest : Option (List Char × List Char)) :
    Option (List Char × List Char) := do
  let c ← c
  let (text, rest) ← rest
  return (c :: text, rest)

/-- Takes the rest of a text, with its end. `fuel` bounds its characters. -/
def takeText : Nat → List Char → Option (List Char × List Char)
  | 0, _ => none
  | _, [] => none
  | _, '"' :: cs => some ([], cs)
  | fuel + 1, '\\' :: 'u' :: a :: b :: c :: d :: cs =>
    match unitOf [a, b, c, d] with
    | none => none
    | some first =>
      if isHighUnit first then
        match cs with
        | '\\' :: 'u' :: a :: b :: c :: d :: cs =>
          match unitOf [a, b, c, d] with
          | none => none
          | some second => consText (charOfUnits first (some second)) (takeText fuel cs)
        | _ => none
      else
        consText (charOfUnits first none) (takeText fuel cs)
  | fuel + 1, '\\' :: c :: cs => consText (shortEscape c) (takeText fuel cs)
  | fuel + 1, c :: cs => if 0x20 ≤ c.toNat then consText (some c) (takeText fuel cs) else none

def takeQuoted : List Char → Option (String × List Char)
  | '"' :: cs => (takeText (cs.length + 1) cs).map fun (text, rest) => (String.ofList text, rest)
  | _ => none

/-! ### Values -/

def takeChar (c : Char) : List Char → Option (List Char)
  | [] => none
  | d :: cs => if d = c then some cs else none

def takeWord (word : String) (cs : List Char) : Option (List Char) :=
  word.toList.foldlM (fun rest c => takeChar c rest) cs

def takeConstant (cs : List Char) : Option (Value × List Char) :=
  match takeWord "null" cs, takeWord "true" cs, takeWord "false" cs with
  | some rest, _, _ => some (.null, rest)
  | _, some rest, _ => some (.boolean true, rest)
  | _, _, some rest => some (.boolean false, rest)
  | _, _, _ => none

/-- Keeps the last value of every name, at the place of its first. -/
def lastOfEach (entries : Entries) : Entries :=
  entries.foldl (fun es (name, v) => Value.alterEntry name (fun _ => v) es) []

mutual

/-- Takes a value with at most `depth` brackets and braces around its parts. -/
def takeValue : Nat → Nat → List Char → Option (Value × List Char)
  | 0, _, _ => none
  | fuel + 1, depth, cs =>
    match cs with
    | '[' :: rest =>
      match depth with
      | 0 => none
      | depth + 1 =>
        match skipSpaces rest with
        | ']' :: rest => some (.array [], rest)
        | rest => (takeItems fuel depth rest).map fun (items, rest) => (.array items, rest)
    | '\x7b' :: rest =>
      match depth with
      | 0 => none
      | depth + 1 =>
        match skipSpaces rest with
        | '\x7d' :: rest => some (.table [], rest)
        | rest => (takeMembers fuel depth rest).map fun (es, rest) =>
          (.table (lastOfEach es), rest)
    | '"' :: _ => (takeQuoted cs).map fun (text, rest) => (.text text, rest)
    | '-' :: _ => takeNumber cs
    | c :: _ => if c.isDigit then takeNumber cs else takeConstant cs
    | [] => none

def takeItems : Nat → Nat → List Char → Option (List Value × List Char)
  | 0, _, _ => none
  | fuel + 1, depth, cs => do
    let (v, rest) ← takeValue fuel depth cs
    match skipSpaces rest with
    | ',' :: rest =>
      (takeItems fuel depth (skipSpaces rest)).map fun (items, rest) => (v :: items, rest)
    | ']' :: rest => some ([v], rest)
    | _ => none

def takeMembers : Nat → Nat → List Char → Option (Entries × List Char)
  | 0, _, _ => none
  | fuel + 1, depth, cs => do
    let (name, rest) ← takeQuoted cs
    let rest ← takeChar ':' (skipSpaces rest)
    let (v, rest) ← takeValue fuel depth (skipSpaces rest)
    match skipSpaces rest with
    | ',' :: rest =>
      (takeMembers fuel depth (skipSpaces rest)).map fun (es, rest) => ((name, v) :: es, rest)
    | '\x7d' :: rest => some ([(name, v)], rest)
    | _ => none

end

def maxDepth : Nat := 127

def read (text : String) : Option Entries := do
  let cs := skipSpaces text.toList
  let (v, rest) ← takeValue (2 * cs.length + 2) maxDepth cs
  match v, skipSpaces rest with
  | .table es, [] => some es
  | _, _ => none

end Ident160.Document.Json
