import Ident160.Document.Value

/-!
Paths written in names. The name of a top-level entry may lead into nested values: names of
letters, digits, dashes and underscores are joined by dots, and whole numbers in brackets select
items. A name that does not have this form names itself.
-/

namespace Ident160.Document.KeyPath

open Value (Step)

def isNameChar (c : Char) : Bool := c.isAlphanum || c = '_' || c = '-'

def isSpace (c : Char) : Bool := c = ' ' || c = '\t'

def readName (cs : List Char) : Option (String × List Char) :=
  match cs.takeWhile isNameChar with
  | [] => none
  | run => some (String.ofList run, cs.dropWhile isNameChar)

/-- The signed 64-bit integer written by a sign, if any, and digits. -/
def indexOf (negative : Bool) (digits : List Char) : Option Int :=
  let n := Digit.ofDigits 10 (digits.map fun c => c.toNat - 48)
  if digits.isEmpty then none
  else if negative then if n ≤ 2 ^ 63 then some (-n) else none
  else if n < 2 ^ 63 then some n else none

/-- Takes an item number and the bracket that closes it. Blanks may stand around the number. -/
def readIndex (cs : List Char) : Option (Int × List Char) :=
  let cs := cs.dropWhile isSpace
  let (negative, cs) :=
    match cs with
    | '-' :: rest => (true, rest)
    | _ => (false, cs)
  match (cs.dropWhile Char.isDigit).dropWhile isSpace with
  | ']' :: rest => (indexOf negative (cs.takeWhile Char.isDigit)).map fun i => (i, rest)
  | _ => none

def readSteps : Nat → List Char → Option (List Step)
  | _, [] => some []
  | 0, _ => none
  | fuel + 1, '.' :: cs => do
    let (name, rest) ← readName cs
    return .key name :: (← readSteps fuel rest)
  | fuel + 1, '[' :: cs => do
    let (i, rest) ← readIndex cs
    return .index i :: (← readSteps fuel rest)
  | _, _ => none

/-- Reads a path. Every step takes a character, so their number bounds the steps. -/
def read (cs : List Char) : Option (List Step) := do
  let (name, rest) ← readName cs
  return .key name :: (← readSteps rest.length rest)

/-- The path that the name of a top-level entry stands for. -/
def ofName (name : String) : List Step := (read name.toList).getD [.key name]

end Ident160.Document.KeyPath

namespace Ident160.Document

def coverAt (below : Value) (entry : String × Value) : Value :=
  below.alter (KeyPath.ofName entry.1) (Value.cover entry.2)

def coverAll (below : Value) (entries : Entries) : Value := entries.foldl coverAt below

/-- Lays an entry over a document, unless an array would grow beyond a bound. -/
def coverWithin (capacity : Nat) (below : Value) (entry : String × Value) : Option Value :=
  if Value.addressable capacity (KeyPath.ofName entry.1) below then some (coverAt below entry)
  else none

/-- Lays top-level entries over a document, as long as no array grows beyond a bound. -/
def coverAllWithin (capacity : Nat) (below : Value) (entries : Entries) : Option Value :=
  entries.foldlM (coverWithin capacity) below

end Ident160.Document
