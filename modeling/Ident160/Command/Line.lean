import Ident160.Command.Basic

/-!
Reading the command line. Arguments are taken from the left. Values are collected for one slot at
a time, and are judged only when the next option, a value for another slot or the end of the line
closes the collection; so a bad value is reported before anything that follows, but an unknown
argument hides a bad value that is still open. The words of a subcommand are read to their end
and checked as a whole before what is still open in front of it.
-/

namespace Ident160.Line

inductive Verb where
  | format
  | parse
  | distance
  | random
  | hash
  | config
deriving DecidableEq

namespace Verb

def ofName? (name : String) : Option Verb :=
  match name with
  | "format" => some .format
  | "parse" => some .parse
  | "distance" => some .distance
  | "random" => some .random
  | "hash" => some .hash
  | "config" => some .config
  | _ => none

end Verb

inductive Slot where
  | configPath
  | version
  | help
  | limbs
  | list
  | hex
  | left
  | right
  | seed
  | count
  | text
  | init
deriving DecidableEq

def Slot.takesValue : Slot → Bool
  | .version | .help | .init => false
  | _ => true

structure Choice where
  slot : Slot
  short : Option Char
  long : String

/-- Where on the line an argument stands: in front of the subcommand or behind it. -/
inductive Scope where
  | front
  | behind (verb : Verb)
deriving DecidableEq

namespace Scope

def commonChoices : List Choice :=
  [⟨.configPath, some 'c', "config"⟩, ⟨.help, some 'h', "help"⟩]

def ownChoices : Scope → List Choice
  | .front => [⟨.version, some 'v', "version"⟩]
  | .behind .format => [⟨.list, some 'l', "list"⟩]
  | .behind .random => [⟨.seed, some 's', "seed"⟩, ⟨.count, some 'n', "count"⟩]
  | .behind .config => [⟨.init, none, "init"⟩]
  | .behind _ => []

def choices (scope : Scope) : List Choice := commonChoices ++ scope.ownChoices

def positionals : Scope → List Slot
  | .front => []
  | .behind .format => [.limbs]
  | .behind .parse => [.hex]
  | .behind .distance => [.left, .right]
  | .behind .random => []
  | .behind .hash => [.text]
  | .behind .config => []

def required : Scope → List Slot
  | .behind .format => []
  | scope => scope.positionals

end Scope

structure Accepted where
  filled : List Slot := []
  configPath : Option String := none
  limbs : List UInt32 := []
  list : Option String := none
  hex : String := ""
  left : String := ""
  right : String := ""
  seed : Option UInt64 := none
  count : Nat := 1
  text : String := ""

namespace Accepted

def has (a : Accepted) (slot : Slot) : Bool := a.filled.contains slot

def readLimbs : List String → Except UsageFault (List UInt32)
  | [] => .ok []
  | text :: texts =>
    match readLimb text with
    | .error cause => .error (.badValue cause)
    | .ok limb => (readLimbs texts).map (limb :: ·)

def store (a : Accepted) (slot : Slot) (value : String) : Except UsageFault Accepted :=
  match slot with
  | .configPath =>
    if value.isEmpty then .error .emptyValue else .ok { a with configPath := some value }
  | .list => .ok { a with list := some value }
  | .hex => .ok { a with hex := value }
  | .left => .ok { a with left := value }
  | .right => .ok { a with right := value }
  | .text => .ok { a with text := value }
  | .seed =>
    match readSeed value with
    | .error cause => .error (.badValue cause)
    | .ok seed => .ok { a with seed := some seed }
  | .count =>
    match readCount value with
    | .error cause => .error (.badValue cause)
    | .ok count => .ok { a with count := count }
  | .limbs | .version | .help | .init => .ok a

/-- Takes the collected values of a slot. Only limbs may be given more than once. -/
def accept (a : Accepted) (slot : Slot) (values : List String) : Except UsageFault Accepted :=
  match slot with
  | .help => .error .helpRequested
  | .limbs => do
    let limbs ← readLimbs values
    return { a with filled := .limbs :: a.filled, limbs := a.limbs ++ limbs }
  | slot =>
    if slot.takesValue then
      match values with
      | [] => .error .emptyValue
      | value :: _ =>
        if a.has slot then .error .conflict
        else { a with filled := slot :: a.filled }.store slot value
    else if a.has slot then
      .error .conflict
    else
      .ok { a with filled := slot :: a.filled }

end Accepted

structure Pending where
  slot : Slot
  values : List String
  /-- Whether an option has been named and the next argument is its value. -/
  awaits : Bool

structure State where
  accepted : Accepted := {}
  pending : Option Pending := none
  position : Nat := 0
  trailing : Bool := false

namespace State

/-- Whether the next argument is the value of an option whatever it looks like. -/
def awaits (s : State) : Bool :=
  match s.pending with
  | some p => p.awaits
  | none => false

def settle (s : State) : Except UsageFault State :=
  match s.pending with
  | none => .ok s
  | some p => (s.accepted.accept p.slot p.values).map fun accepted =>
    { s with accepted := accepted, pending := none }

/-- Fills a slot at once, after judging what came before. -/
def fill (s : State) (slot : Slot) (values : List String) : Except UsageFault State := do
  let s ← s.settle
  let accepted ← s.accepted.accept slot values
  return { s with accepted := accepted }

/-- Opens the collection for an option that has been named without a value. -/
def await (s : State) (slot : Slot) : Except UsageFault State :=
  s.settle.map fun s => { s with pending := some ⟨slot, [], true⟩ }

def readLong (s : State) (scope : Scope) (name : String) (value : Option String) :
    Except UsageFault State :=
  match scope.choices.find? (·.long = name) with
  | none => .error .unknownArgument
  | some choice =>
    if choice.slot.takesValue then
      match value with
      | some value => s.fill choice.slot [value]
      | none => s.await choice.slot
    else
      match value with
      | some _ => .error .unwantedValue
      | none => s.fill choice.slot []

/-- What follows the letter of an option in its argument, as a value: an equals sign may come
first, and nothing at all is no value. -/
def attached : List Char → Option (List Char)
  | [] => none
  | '=' :: value => some value
  | value => some value

/-- Reads letters behind one dash, up to the first whose option takes a value. -/
def readLetters (scope : Scope) : State → List Char → Except UsageFault State
  | s, [] => .ok s
  | s, c :: cs =>
    match scope.choices.find? (·.short = some c) with
    | none => .error .unknownArgument
    | some choice =>
      if choice.slot.takesValue then
        match attached cs with
        | some value => s.fill choice.slot [String.ofList value]
        | none => s.await choice.slot
      else
        match s.fill choice.slot [] with
        | .error fault => .error fault
        | .ok s => readLetters scope s cs

def readPositional (s : State) (scope : Scope) (value : String) : Except UsageFault State :=
  match scope.positionals[s.position]? with
  | none =>
    match scope with
    | .behind _ => .error .unknownArgument
    | .front =>
      let isCommand := (Verb.ofName? value).isSome || value = "help"
      if s.trailing && isCommand then .error .unknownArgument else .error .unknownCommand
  | some .limbs =>
    match s.pending with
    | some ⟨.limbs, values, _⟩ => .ok { s with pending := some ⟨.limbs, values ++ [value], false⟩ }
    | _ => s.settle.map fun s => { s with pending := some ⟨.limbs, [value], false⟩ }
  | some slot =>
    s.settle.map fun s =>
      { s with pending := some ⟨slot, [value], false⟩, position := s.position + 1 }

inductive Shape where
  | doubleDash
  | long (name : String) (value : Option String)
  | letters (cs : List Char)
  | plain

def splitName (cs : List Char) : String × Option String :=
  match cs.dropWhile (· ≠ '=') with
  | [] => (String.ofList cs, none)
  | _ :: value => (String.ofList (cs.takeWhile (· ≠ '=')), some (String.ofList value))

/-- The shape of an argument. A single dash alone is a plain value. -/
def shapeOf (arg : String) : Shape :=
  match arg.toList with
  | ['-', '-'] => .doubleDash
  | '-' :: '-' :: cs =>
    let (name, value) := splitName cs
    .long name value
  | '-' :: c :: cs => .letters (c :: cs)
  | _ => .plain

def readArgument (s : State) (scope : Scope) (arg : String) : Except UsageFault State :=
  if s.trailing then
    s.readPositional scope arg
  else
    match shapeOf arg with
    | .doubleDash => .ok { s with trailing := true }
    | .long name value => s.readLong scope name value
    | .letters cs => readLetters scope s cs
    | .plain =>
      match s.pending with
      | some ⟨slot, values, true⟩ => .ok { s with pending := some ⟨slot, values ++ [arg], false⟩ }
      | _ => s.readPositional scope arg

end State

def readArguments (scope : Scope) : State → List String → Except UsageFault Accepted
  | s, [] => s.settle.map State.accepted
  | s, arg :: args =>
    match s.readArgument scope arg with
    | .error fault => .error fault
    | .ok s => readArguments scope s args

def Verb.command (verb : Verb) (a : Accepted) : Command :=
  match verb with
  | .format => .format a.limbs a.list
  | .parse => .parse a.hex
  | .distance => .distance a.left a.right
  | .random => .random a.seed a.count
  | .hash => .hash a.text
  | .config => .config (a.has .init)

/-- Checks the values behind a subcommand as a whole: first for conflicts, then for gaps. -/
def Verb.check (verb : Verb) (a : Accepted) : Except UsageFault Unit :=
  if a.has .limbs && a.has .list then .error .conflict
  else if (Scope.behind verb).required.all a.has then .ok ()
  else .error .missingArgument

/-- Reads the words of a subcommand: the command, and the settings file if one is named here. -/
def readCommand (verb : Verb) (args : List String) :
    Except UsageFault (Command × Option String) := do
  let a ← readArguments (.behind verb) {} args
  verb.check a
  return (verb.command a, a.configPath)

/-- What the words behind `help` come to. One subcommand may be named, and none has others. -/
def helpFault : List String → UsageFault
  | [] => .helpRequested
  | [name] =>
    if (Verb.ofName? name).isSome || name = "help" then .helpRequested else .unknownCommand
  | _ => .unknownCommand

/-- Reads the line from its front. A settings file named behind the subcommand wins. -/
def readFront : State → List String → Except UsageFault Invocation
  | s, [] => s.settle.map fun s => ⟨s.accepted.configPath, s.accepted.has .version, none⟩
  | s, arg :: args =>
    let verb? := if s.trailing || s.awaits then none else Verb.ofName? arg
    match verb? with
    | some verb => do
      let (command, path) ← readCommand verb args
      let s ← s.settle
      return ⟨path <|> s.accepted.configPath, s.accepted.has .version, some command⟩
    | none =>
      if !s.trailing && !s.awaits && arg = "help" then
        .error (helpFault args)
      else
        match s.readArgument .front arg with
        | .error fault => .error fault
        | .ok s => readFront s args

def read (args : List String) : Except UsageFault Invocation := readFront {} args

end Ident160.Line
