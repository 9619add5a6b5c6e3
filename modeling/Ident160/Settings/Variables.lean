import Ident160.Document.Decimal
import Ident160.Document.Value
import Ident160.Numeral

/-!
Settings in environment variables. A variable counts if its name, in lowercase, starts with the
program's own words; the rest of the name is the path of the setting, with two underscores for a
dot. The text of a variable is read as a truth value, an integer or a number if it is one.
-/

namespace Ident160.Variables

open Document (Value Entries)

def ownWords : List Char := "uint160_printer_".toList

def dropExactly : List Char → List Char → Option (List Char)
  | [], cs => some cs
  | _ :: _, [] => none
  | e :: expected, c :: cs => if e = c then dropExactly expected cs else none

/-- A name with dots for pairs of underscores, paired from the left. -/
def dotted : List Char → List Char
  | '_' :: '_' :: cs => '.' :: dotted cs
  | c :: cs => c :: dotted cs
  | [] => []

def settingName (name : String) : Option String :=
  (dropExactly ownWords (name.toList.map Char.toLower)).map fun rest => String.ofList (dotted rest)

/-- A floating-point number: a word for an infinite one or for none, or digits, with a point
anywhere among them or around them, and an exponent. -/
def readFloat (cs : List Char) : Option Binary64 :=
  let (negative, rest) := Document.Decimal.takeSign cs
  let word := rest.map Char.toLower
  if word = "inf".toList || word = "infinity".toList then some (.infinite negative)
  else if word = "nan".toList then some .nan
  else
    let p := Document.Decimal.split cs
    let digits := p.whole ++ p.fraction.getD []
    let sound := Document.Decimal.isDigits digits &&
      p.exponent.all Document.Decimal.isSignedDigits
    if sound then some p.binary64 else none

def valueOf (text : String) : Value :=
  let cs := text.toList
  let word := cs.map Char.toLower
  if word = "true".toList then .boolean true
  else if word = "false".toList then .boolean false
  else
    match Numeral.readInt64 cs with
    | .ok n => .integer n
    | .error _ =>
      match readFloat cs with
      | some x => .float x
      | none => .text text

def entries (environment : List (String × String)) : Entries :=
  environment.filterMap fun (name, text) =>
    (settingName name).map fun path => (path, valueOf text)

end Ident160.Variables
