import Ident160.LimbList.Reader

/-!
The reader of limb lists, put together from small ones. A small reader takes something from the
front of a text, or refuses the text from some place on, or finds that it would have to see more of
it. Only what has been refused is tried in another way.
-/

namespace Ident160.LimbList

/-- Why nothing is taken of a text. -/
inductive Halt where
  /-- This rest of the text is none that could be taken. -/
  | refused (rest : List Char)
  /-- The text ends before it can be told. -/
  | incomplete
deriving DecidableEq

abbrev Parser (α : Type) := List Char → Except Halt (α × List Char)

namespace Parser

variable {α β γ : Type}

/-- Takes every text for a complete one: what is not read is refused, also at its end. -/
def complete (reader : List Char → Option (α × List Char)) : Parser α := fun text =>
  match reader text with
  | some result => .ok result
  | none => .error (.refused text)

/-- Passes over the front of a complete text. -/
def passing (reader : List Char → Option (List Char)) : Parser Unit :=
  complete fun text => (reader text).map fun rest => ((), rest)

def map (f : α → β) (p : Parser α) : Parser β := fun text => do
  let (a, rest) ← p text
  return (f a, rest)

def preceded (first : Parser α) (second : Parser β) : Parser β := fun text => do
  let (_, rest) ← first text
  second rest

def terminated (first : Parser α) (second : Parser β) : Parser α := fun text => do
  let (a, rest) ← first text
  let (_, last) ← second rest
  return (a, last)

def delimited (opening : Parser α) (inner : Parser β) (closing : Parser γ) : Parser β :=
  preceded opening (terminated inner closing)

def alt (first second : Parser α) : Parser α := fun text =>
  match first text with
  | .error (.refused _) => second text
  | result => result

/-- Takes elements as long as a separator with an element behind it follows. A round that takes
nothing would go on for ever, and is refused. -/
def more (separator : Parser α) (element : Parser β) (text : List Char) :
    Except Halt (List β × List Char) :=
  match preceded separator element text with
  | .error (.refused _) => .ok ([], text)
  | .error .incomplete => .error .incomplete
  | .ok (b, rest) =>
    if _ : rest.length < text.length then do
      let (others, last) ← more separator element rest
      return (b :: others, last)
    else
      .error (.refused text)
termination_by text.length

def separatedList (separator : Parser α) (element : Parser β) : Parser (List β) := fun text =>
  match element text with
  | .error (.refused _) => .ok ([], text)
  | .error .incomplete => .error .incomplete
  | .ok (b, rest) => do
    let (others, last) ← more separator element rest
    return (b :: others, last)

def allConsuming (p : Parser α) : Parser α := fun text => do
  let (a, rest) ← p text
  match rest with
  | [] => .ok (a, [])
  | c :: cs => .error (.refused (c :: cs))

/-! ### Limb lists -/

def blanks : Parser Unit := passing fun text => some (skipBlanks text)

def exactly (expected : List Char) : Parser Unit := passing (readExactly expected)

def literal : Parser Literal :=
  alt (map .hex (preceded (passing readMark) (complete (readRun Digit.isHex))))
    (map .decimal (complete (readRun Char.isDigit)))

def separator : Parser Unit :=
  alt (delimited blanks (exactly [',']) blanks)
    (passing fun text => (readRun isBlank text).map Prod.snd)

def elements : Parser (List Literal) := separatedList separator literal

def between (opening closing : Char) : Parser (List Literal) :=
  delimited (preceded (exactly [opening]) blanks) elements (preceded blanks (exactly [closing]))

def bracketed : Parser (List Literal) := alt (between '\x7b' '\x7d') (between '[' ']')

def dumpOpening : Parser Unit :=
  preceded (exactly ['\x7b']) <| preceded blanks <| preceded (exactly memberName) <|
    preceded blanks <| preceded (exactly ['=']) blanks

def dump : Parser (List Literal) :=
  delimited dumpOpening bracketed (preceded blanks (exactly ['\x7d']))

-- Irreducible, or else every match on what has been read would unfold the small readers.
@[irreducible]
def limbList : Parser (List Literal) :=
  allConsuming (delimited blanks (alt dump (alt bracketed elements)) blanks)

end Parser

def Halt.fault : Halt → Fault
  | .refused rest => .unexpected rest
  | .incomplete => .incomplete

def readChars (text : List Char) : Except Fault (List UInt32) :=
  match Parser.limbList text with
  | .error halt => .error halt.fault
  | .ok (literals, _) => literalWords literals

/-- Reads a limb list. How many limbs it has is for the caller to judge. -/
def read (text : String) : Except Fault (List UInt32) := readChars text.toList

end Ident160.LimbList
