import Ident160.Document.Decimal
import Ident160.Document.Value

/-!
Numbers, truth values and moments in TOML. They are written without quotes, as a run of letters,
digits and a few marks; the whole run must fit one of the notations.
-/

namespace Ident160.Document.Toml

def isAtomChar (c : Char) : Bool :=
  c.isAlphanum || c = '_' || c = '+' || c = '-' || c = '.' || c = ':'

/-- Removes the underscores from digits. Each must stand between two digits. -/
def ungroup (isDigit : Char → Bool) : List Char → Option (List Char)
  | [] => none
  | [d] => if isDigit d then some [d] else none
  | d :: '_' :: rest => if isDigit d then (ungroup isDigit rest).map (d :: ·) else none
  | d :: rest => if isDigit d then (ungroup isDigit rest).map (d :: ·) else none

def hasLeadingZero : List Char → Bool
  | '0' :: _ :: _ => true
  | _ => false

def integerInRange (n : Int) : Option Value :=
  if -2 ^ 63 ≤ n ∧ n < 2 ^ 63 then some (.integer n) else none

def readRadix (radix : Nat) (digits : List Char) : Option Value := do
  let digits ← ungroup (fun c => (Digit.value? radix c).isSome) digits
  integerInRange (Digit.ofDigits radix (digits.map fun c => (Digit.value? radix c).getD 0))

def readDecimal (cs : List Char) : Option Value := do
  let (negative, digits) := Decimal.takeSign cs
  let digits ← ungroup Char.isDigit digits
  if hasLeadingZero digits then none
  else integerInRange (if negative then -Decimal.natOf digits else Decimal.natOf digits)

def readInteger : List Char → Option Value
  | '0' :: 'x' :: digits => readRadix 16 digits
  | '0' :: 'o' :: digits => readRadix 8 digits
  | '0' :: 'b' :: digits => readRadix 2 digits
  | cs => readDecimal cs

def ungroupSigned : List Char → Option (List Char)
  | '+' :: cs => ungroup Char.isDigit cs
  | '-' :: cs => (ungroup Char.isDigit cs).map ('-' :: ·)
  | cs => ungroup Char.isDigit cs

def readPart {α β : Type} (f : α → Option β) : Option α → Option (Option β)
  | none => some none
  | some a => (f a).map some

/-- A number with a point or an exponent. It must be within the range of finite numbers. -/
def readFloat (cs : List Char) : Option Value := do
  let p := Decimal.split cs
  let whole ← ungroup Char.isDigit p.whole
  let fraction ← readPart (ungroup Char.isDigit) p.fraction
  let exponent ← readPart ungroupSigned p.exponent
  if hasLeadingZero whole || (fraction.isNone && exponent.isNone) then none
  else
    let x := Decimal.Parts.binary64 ⟨p.negative, whole, fraction, exponent⟩
    if x.isFinite then some (.float x) else none

def readSpecial (cs : List Char) : Option Value :=
  let (negative, name) := Decimal.takeSign cs
  if name = "inf".toList then some (.float (.infinite negative))
  else if name = "nan".toList then some (.float .nan)
  else none

def readBoolean (cs : List Char) : Option Value :=
  if cs = "true".toList then some (.boolean true)
  else if cs = "false".toList then some (.boolean false)
  else none

/-! ### Moments -/

def takeDigits (n : Nat) (cs : List Char) : Option (Nat × List Char) :=
  let digits := cs.take n
  if digits.length = n && digits.all Char.isDigit then some (Decimal.natOf digits, cs.drop n)
  else none

def takeChar (c : Char) : List Char → Option (List Char)
  | [] => none
  | d :: cs => if d = c then some cs else none

def isLeapYear (year : Nat) : Bool := year % 4 = 0 && (year % 100 ≠ 0 || year % 400 = 0)

def daysIn (year month : Nat) : Nat :=
  if month = 2 then if isLeapYear year then 29 else 28
  else if month = 4 || month = 6 || month = 9 || month = 11 then 30
  else 31

def takeDate (cs : List Char) : Option (List Char) := do
  let (year, cs) ← takeDigits 4 cs
  let (month, cs) ← takeDigits 2 (← takeChar '-' cs)
  let (day, cs) ← takeDigits 2 (← takeChar '-' cs)
  if 1 ≤ month && month ≤ 12 && 1 ≤ day && day ≤ daysIn year month then some cs else none

def takeFraction : List Char → Option (List Char)
  | '.' :: cs =>
    match cs with
    | c :: _ => if c.isDigit then some (cs.dropWhile Char.isDigit) else none
    | [] => none
  | cs => some cs

def takeSeconds : List Char → Option (List Char)
  | ':' :: cs => do
    let (second, cs) ← takeDigits 2 cs
    if second ≤ 60 then takeFraction cs else none
  | cs => some cs

def takeMinutes (cs : List Char) : Option (List Char) := do
  let (hour, cs) ← takeDigits 2 cs
  let (minute, cs) ← takeDigits 2 (← takeChar ':' cs)
  if hour ≤ 23 && minute ≤ 59 then some cs else none

def takeTime (cs : List Char) : Option (List Char) := do takeSeconds (← takeMinutes cs)

def takeOffset : List Char → Option (List Char)
  | 'Z' :: cs | 'z' :: cs => some cs
  | '+' :: cs | '-' :: cs => takeMinutes cs
  | cs => some cs

def takeTimeOfDay : List Char → Option (List Char)
  | [] => some []
  | 'T' :: cs | 't' :: cs => do takeOffset (← takeTime cs)
  | _ => none

def readMoment (cs : List Char) : Option Value :=
  let rest := match takeDate cs with
    | some rest => takeTimeOfDay rest
    | none => takeTime cs
  match rest with
  | some [] => some (.text (String.ofList cs))
  | _ => none

def readAtom (cs : List Char) : Option Value :=
  readBoolean cs <|> readInteger cs <|> readFloat cs <|> readSpecial cs <|> readMoment cs

/-- Takes an unquoted value. A date and a time may be set apart by a blank. -/
def takeAtom (cs : List Char) : Option (Value × List Char) :=
  let atom := cs.takeWhile isAtomChar
  let rest := cs.dropWhile isAtomChar
  match takeDate atom, rest with
  | some [], ' ' :: c :: more =>
    if c.isDigit then
      (readAtom (atom ++ 'T' :: (c :: more).takeWhile isAtomChar)).map fun v =>
        (v, (c :: more).dropWhile isAtomChar)
    else
      (readAtom atom).map fun v => (v, rest)
  | _, _ => (readAtom atom).map fun v => (v, rest)

end Ident160.Document.Toml
