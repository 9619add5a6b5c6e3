import Ident160.Numeral
import Ident160.Text.Quoted

/-!
What can be asked on the command line, and what can be wrong with it. The values that stand on
the line are read here: limbs, seeds and counts, each with the cause for which it is refused. The
help for the whole line stands here, too.
-/

namespace Ident160

inductive Command where
  | format (limbs : List UInt32) (list : Option String)
  | parse (hex : String)
  | distance (a b : String)
  | random (seed : Option UInt64) (count : Nat)
  | hash (text : String)
  /-- Show where settings are read from, or write the default ones. -/
  | config (init : Bool)
deriving DecidableEq

structure Invocation where
  /-- The only file to read settings from, if one is named. -/
  configPath : Option String
  version : Bool
  command : Option Command
deriving DecidableEq

def maxRandomCount : Nat := 10000

inductive ValueFault where
  | badLimb (text : String) (fault : Numeral.Fault)
  | badNumber (fault : Numeral.Fault)
  | countOutOfRange (count : Int)
deriving DecidableEq

def integerText : Int → String
  | .ofNat n => Digit.decimalText n
  | .negSucc n => "-" ++ Digit.decimalText (n + 1)

def ValueFault.message : ValueFault → String
  | .badLimb text fault => "invalid limb " ++ Text.quoteText text ++ ": " ++ fault.message
  | .badNumber fault => fault.message
  | .countOutOfRange count =>
    integerText count ++ " is not in 1..=" ++ Digit.decimalText maxRandomCount

/-- Reads a limb: decimal, or hexadecimal behind the mark `0x` or `0X`. -/
def readLimbChars : List Char → Except Numeral.Fault UInt32
  | '0' :: 'x' :: digits => Numeral.readWord 16 digits
  | '0' :: 'X' :: digits => Numeral.readWord 16 digits
  | digits => Numeral.readWord 10 digits

def readLimb (text : String) : Except ValueFault UInt32 :=
  (readLimbChars text.toList).mapError (.badLimb text)

def readSeed (text : String) : Except ValueFault UInt64 :=
  (Numeral.readUInt64 text.toList).mapError .badNumber

/-- Reads how many identifiers to draw: any integer is a number first, and then in range or not. -/
def readCount (text : String) : Except ValueFault Nat :=
  match Numeral.readInt64 text.toList with
  | .error fault => .error (.badNumber fault)
  | .ok n => if 1 ≤ n ∧ n ≤ maxRandomCount then .ok n.toNat else .error (.countOutOfRange n)

inductive UsageFault where
  | unknownArgument
  | unknownCommand
  | missingArgument
  | conflict
  /-- A value is missing or empty. -/
  | emptyValue
  | unwantedValue
  | badValue (cause : ValueFault)
  /-- Help is asked for, which is no fault of the user. -/
  | helpRequested
deriving DecidableEq

def helpText : String :=
  "Render 160-bit identifiers the way a debugger shows them\n\n" ++
  "Usage: uint160-printer [OPTIONS] [COMMAND]\n\n" ++
  "Commands:\n" ++
  "  format    Render five 32-bit limbs, most significant first\n" ++
  "  parse     Parse a 40-character hex identifier and describe it\n" ++
  "  distance  XOR distance between two hex identifiers\n" ++
  "  random    Generate random identifiers\n" ++
  "  hash      SHA-1 key of a text\n" ++
  "  config    Show configuration file locations\n" ++
  "  help      Print this message or the help of the given subcommand(s)\n\n" ++
  "Options:\n" ++
  "  -c, --config <CONFIG_PATH>  Read configuration from this file only\n" ++
  "  -v, --version               Show version information\n" ++
  "  -h, --help                  Print help\n"

/-- Whether nothing went wrong: asking for help ends the program well. -/
def UsageFault.exitCode : UsageFault → Nat
  | .helpRequested => 0
  | _ => 2

end Ident160
