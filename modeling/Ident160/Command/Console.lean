import Ident160.Digit

/-!
Where output goes. A console keeps what its sink has taken. A sink may refuse whatever is written,
with an error of the operating system. Output for the user takes a missing reader for the wish to
see no more, and only other errors for faults. A bad descriptor is no error to anybody: the text is
lost without a word.
-/

namespace Ident160

/-- An error of the operating system that trying again does not help: not an interruption. -/
structure SystemError where
  code : Nat
  words : String
  lasting : code ≠ 4 := by decide
deriving DecidableEq

namespace SystemError

def message (e : SystemError) : String :=
  e.words ++ " (os error " ++ Digit.decimalText e.code ++ ")"

def brokenPipe : Nat := 32

def badDescriptor : Nat := 9

end SystemError

inductive Sink where
  | working
  | failing (error : SystemError)
deriving DecidableEq

structure Console where
  sink : Sink
  written : String := ""
deriving DecidableEq

namespace Console

def write (console : Console) (text : String) : Except SystemError Console :=
  match console.sink with
  | .working => .ok { console with written := console.written ++ text }
  | .failing e => if e.code = SystemError.badDescriptor then .ok console else .error e

def print (console : Console) (text : String) : Except SystemError Console :=
  match console.write text with
  | .ok console => .ok console
  | .error e => if e.code = SystemError.brokenPipe then .ok console else .error e

/-- Writes a text and looks away if it is refused. -/
def offer (console : Console) (text : String) : Console :=
  match console.write text with
  | .ok console => console
  | .error _ => console

end Console

end Ident160
