import Ident160.Document.KeyPath
import Ident160.Numeral
import Ident160.Settings.Basic

/-!
From documents to settings. Each setting takes values of several kinds: truth values, numbers,
and texts that name them. A section is a table of settings, or an array that lists them in their
order; a setting that a section leaves out has its default. Documents are laid over the defaults as
they are found, and one that is not found or does not fit ends it.
-/

namespace Ident160

inductive SettingsFault where
  /-- There is no such file, or its name does not tell its format. -/
  | noDocument
  /-- The file breaks the rules of its format. -/
  | malformed
  /-- A setting has a value of the wrong kind. -/
  | wrongKind
  /-- A section is neither a table nor an array. -/
  | noSection
  /-- An array has to be longer than arrays can be. -/
  | overlong
deriving DecidableEq

namespace Settings

open Document (Value Entries)

def truthWord (word : List Char) : Option Bool :=
  if word = "true".toList || word = "on".toList || word = "yes".toList then some true
  else if word = "false".toList || word = "off".toList || word = "no".toList then some false
  else none

def truthOfText (text : String) : Option Bool :=
  let word := text.toList.map Char.toLower
  if word = ['1'] then some true else if word = ['0'] then some false else truthWord word

def truthOf : Value → Option Bool
  | .boolean b => some b
  | .integer n => some (n ≠ 0)
  | .float x => some (!x.isZero)
  | .text s => truthOfText s
  | .null | .array _ | .table _ => none

/-- A text as a seed: a word for a truth value, or an unsigned number. -/
def seedOfText (text : String) : Option UInt64 :=
  match truthWord (text.toList.map Char.toLower) with
  | some b => some (if b then 1 else 0)
  | none => (Numeral.readUInt64 text.toList).toOption

/-- A value as a seed. A number with a fraction is rounded into the range of seeds. -/
def seedOf : Value → Option UInt64
  | .boolean b => some (if b then 1 else 0)
  | .integer n => if 0 ≤ n then some (UInt64.ofNat n.toNat) else none
  | .float x => some x.toUInt64
  | .text s => seedOfText s
  | .null | .array _ | .table _ => none

def decodeTruth (fallback : Bool) : Option Value → Except SettingsFault Bool
  | none => .ok fallback
  | some v =>
    match truthOf v with
    | some b => .ok b
    | none => .error .wrongKind

/-- A setting that is a seed; null stands for none. -/
def decodeSeed : Option Value → Except SettingsFault (Option UInt64)
  | none | some .null => .ok none
  | some v =>
    match seedOf v with
    | some seed => .ok (some seed)
    | none => .error .wrongKind

def member (name : String) (place : Nat) : Value → Except SettingsFault (Option Value)
  | .table es => .ok (es.lookup name)
  | .array items => .ok items[place]?
  | _ => .error .noSection

def decodeDisplay (v : Value) : Except SettingsFault DisplaySettings := do
  let defaults : DisplaySettings := {}
  let uppercase ← decodeTruth defaults.uppercase (← member "uppercase" 0 v)
  let showLimbs ← decodeTruth defaults.showLimbs (← member "show_limbs" 1 v)
  return ⟨uppercase, showLimbs⟩

def decodeRandom (v : Value) : Except SettingsFault RandomSettings := do
  return ⟨← decodeSeed (← member "seed" 0 v)⟩

def decode (v : Value) : Except SettingsFault Settings := do
  let display ← decodeDisplay ((v.lookup "display").getD (.table []))
  let random ← decodeRandom ((v.lookup "random").getD (.table []))
  return ⟨display, random⟩

def entries (s : Settings) : Entries :=
  let seed : Value :=
    match s.random.seed with
    | some seed => .integer seed.toNat
    | none => .null
  [("display", .table [("uppercase", .boolean s.display.uppercase),
      ("show_limbs", .boolean s.display.showLimbs)]),
    ("random", .table [("seed", seed)])]

def defaultDocument : Value := Document.coverAll (.table []) ({} : Settings).entries

/-- Lays a layer over a document, if it has been found and fits. -/
def overlay (capacity : Nat) (below : Value) (layer : Except SettingsFault Entries) :
    Except SettingsFault Value :=
  match layer with
  | .error fault => .error fault
  | .ok es =>
    match Document.coverAllWithin capacity below es with
    | some v => .ok v
    | none => .error .overlong

/-- The settings that layers make, each laid over those before it and all over the defaults. -/
def ofLayers (capacity : Nat) (layers : List (Except SettingsFault Entries)) :
    Except SettingsFault Settings := do
  decode (← layers.foldlM (overlay capacity) defaultDocument)

end Settings

end Ident160
