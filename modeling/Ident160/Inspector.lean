import Ident160.Ident.Text
import Ident160.Ident.Arith
import Ident160.Keystream
import Ident160.LimbList.Combinators
import Ident160.Settings.Basic
import Ident160.Sha1

/-!
What the program does with identifiers under given settings: render limbs and limb lists in the
chosen letter case, describe a value, draw random identifiers, digest a message.
-/

namespace Ident160

structure Description where
  hex : String
  words : Vector UInt32 5
  bitLength : Nat

inductive RenderError where
  | wrongCount (e : WordCountError)
  | badList (fault : LimbList.Fault)
deriving DecidableEq

def RenderError.message : RenderError → String
  | .wrongCount e => e.message
  | .badList fault => fault.message

def lowercaseText (text : String) : String := String.ofList (text.toList.map Char.toLower)

namespace Settings

def applyCase (settings : Settings) (hex : String) : String :=
  if settings.display.uppercase then hex else lowercaseText hex

def renderLimbs (settings : Settings) (limbs : List UInt32) : Except RenderError String :=
  match renderWordList limbs with
  | .error e => .error (.wrongCount e)
  | .ok hex => .ok (settings.applyCase hex)

def renderLimbList (settings : Settings) (text : String) : Except RenderError String :=
  match LimbList.read text with
  | .error fault => .error (.badList fault)
  | .ok limbs => settings.renderLimbs limbs

def describe (settings : Settings) (a : Ident) : Description :=
  ⟨settings.applyCase a.toUpperHex, a.words, a.bitLength⟩

/-- The seed in force: the one asked for, or else the one that is set. -/
def effectiveSeed (settings : Settings) (asked : Option UInt64) : Option UInt64 :=
  asked <|> settings.random.seed

/-- The stream that identifiers are drawn from. Without a seed its key comes from outside. -/
def keystream (settings : Settings) (asked : Option UInt64) (entropy : ChaCha.Key) : Keystream :=
  match settings.effectiveSeed asked with
  | some seed => .ofSeed seed
  | none => .ofKey entropy

def draw (settings : Settings) (asked : Option UInt64) (entropy : ChaCha.Key) : Ident :=
  (settings.keystream asked entropy).nextIdent.1

def drawAt (settings : Settings) (asked : Option UInt64) (entropy : ChaCha.Key) (n : Nat) :
    Ident :=
  (settings.keystream asked entropy).identAt n

def drawMany (settings : Settings) (asked : Option UInt64) (entropy : ChaCha.Key)
    (count : Nat) : List Ident :=
  (settings.keystream asked entropy).idents count

end Settings

end Ident160
