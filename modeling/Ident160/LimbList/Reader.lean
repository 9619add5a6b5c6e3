import Ident160.LimbList.Grammar
import Ident160.Numeral

/-!
Plain readers of limb lists. Each takes what it can from the front of a text and returns the rest,
or none if it takes nothing. Alternatives are tried in a fixed order, dump, bracketed list, bare
list, and blanks are taken greedily; the first alternative that fits is final. A separator with no
limb behind it stays in the rest.
-/

namespace Ident160.LimbList

def skipBlanks (text : List Char) : List Char := text.dropWhile isBlank

theorem length_skipBlanks_le (text : List Char) : (skipBlanks text).length ≤ text.length :=
  (List.dropWhile_suffix isBlank).length_le

def readMark : List Char → Option (List Char)
  | '0' :: 'x' :: rest => some rest
  | '0' :: 'X' :: rest => some rest
  | _ => none

/-- Takes the longest nonempty run of characters of a class. -/
def readRun (inClass : Char → Bool) (text : List Char) : Option (List Char × List Char) :=
  match text.takeWhile inClass with
  | [] => none
  | c :: cs => some (c :: cs, text.dropWhile inClass)

def readHex (text : List Char) : Option (Literal × List Char) :=
  match readMark text with
  | none => none
  | some digits => (readRun Digit.isHex digits).map fun (run, rest) => (.hex run, rest)

/-- Takes a literal, a hexadecimal one where both kinds fit. -/
def readLiteral (text : List Char) : Option (Literal × List Char) :=
  match readHex text with
  | some result => some result
  | none => (readRun Char.isDigit text).map fun (run, rest) => (.decimal run, rest)

/-- Takes a separator: one comma with the blanks around it, or else a nonempty run of blanks. -/
def readSeparator (text : List Char) : Option (List Char) :=
  match skipBlanks text with
  | ',' :: rest => some (skipBlanks rest)
  | rest => if rest.length < text.length then some rest else none

theorem readRun_length {inClass : Char → Bool} {text run rest : List Char}
    (h : readRun inClass text = some (run, rest)) : rest.length < text.length := by
  unfold readRun at h
  split at h
  · simp at h
  · next c cs htake =>
    have hsplit := congrArg List.length (List.takeWhile_append_dropWhile (p := inClass) (l := text))
    simp only [htake, List.length_append, List.length_cons] at hsplit
    simp only [Option.some.injEq, Prod.mk.injEq] at h
    obtain ⟨_, rfl⟩ := h
    omega

theorem readMark_length {text rest : List Char} (h : readMark text = some rest) :
    rest.length < text.length := by
  unfold readMark at h
  split at h
  · simp only [Option.some.injEq] at h
    subst h
    simp only [List.length_cons]
    omega
  · simp only [Option.some.injEq] at h
    subst h
    simp only [List.length_cons]
    omega
  · simp at h

theorem readLiteral_length {text rest : List Char} {literal : Literal}
    (h : readLiteral text = some (literal, rest)) : rest.length < text.length := by
  unfold readLiteral at h
  split at h
  · next hhex =>
    unfold readHex at hhex
    split at hhex
    · simp at hhex
    · next digits hmark =>
      have hlong := readMark_length hmark
      obtain ⟨⟨run, rest'⟩, hrun, heq⟩ := Option.map_eq_some_iff.1 hhex
      have hshort := readRun_length hrun
      simp_all
      omega
  · obtain ⟨⟨run, rest'⟩, hrun, heq⟩ := Option.map_eq_some_iff.1 h
    have hshort := readRun_length hrun
    simp_all

theorem readSeparator_length {text rest : List Char} (h : readSeparator text = some rest) :
    rest.length < text.length := by
  unfold readSeparator at h
  have hskip := length_skipBlanks_le text
  split at h
  · next above heq =>
    have habove := length_skipBlanks_le above
    rw [heq, List.length_cons] at hskip
    simp only [Option.some.injEq] at h
    subst h
    omega
  · split at h <;> simp_all

/-- Takes limbs as long as a separator with a limb behind it follows. -/
def readMore (text : List Char) : List Literal × List Char :=
  match hsep : readSeparator text with
  | none => ([], text)
  | some behind =>
    match hlit : readLiteral behind with
    | none => ([], text)
    | some (literal, rest) =>
      have : rest.length < text.length :=
        Nat.lt_trans (readLiteral_length hlit) (readSeparator_length hsep)
      let (literals, last) := readMore rest
      (literal :: literals, last)
termination_by text.length

def readElements (text : List Char) : List Literal × List Char :=
  match readLiteral text with
  | none => ([], text)
  | some (literal, rest) =>
    let (literals, last) := readMore rest
    (literal :: literals, last)

def readBetween (opening closing : Char) : List Char → Option (List Literal × List Char)
  | [] => none
  | c :: text =>
    if c = opening then
      let (literals, rest) := readElements (skipBlanks text)
      match skipBlanks rest with
      | [] => none
      | d :: last => if d = closing then some (literals, last) else none
    else
      none

def readBracketed (text : List Char) : Option (List Literal × List Char) :=
  match readBetween '\x7b' '\x7d' text with
  | some result => some result
  | none => readBetween '[' ']' text

def readExactly : List Char → List Char → Option (List Char)
  | [], text => some text
  | _, [] => none
  | c :: expected, d :: text => if c = d then readExactly expected text else none

/-- Takes the opening of a dump, up to the equals sign and the blanks behind it. -/
def readDumpOpening (text : List Char) : Option (List Char) := do
  let text ← readExactly ['\x7b'] text
  let text ← readExactly memberName (skipBlanks text)
  let text ← readExactly ['='] (skipBlanks text)
  return skipBlanks text

def readDump (text : List Char) : Option (List Literal × List Char) := do
  let text ← readDumpOpening text
  let (literals, text) ← readBracketed text
  let text ← readExactly ['\x7d'] (skipBlanks text)
  return (literals, text)

/-- Takes the first alternative that fits. The bare list always does. -/
def readShape (text : List Char) : List Literal × List Char :=
  match readDump text with
  | some result => result
  | none =>
    match readBracketed text with
    | some result => result
    | none => readElements text

/-- Why a text is no limb list, or no list of 32-bit limbs. -/
inductive Fault where
  /-- The list ends before this rest of the text. -/
  | unexpected (rest : List Char)
  /-- The first limb that needs more than 32 bits. -/
  | tooWide (literal : Literal)
  /-- The text ends before it can be told. -/
  | incomplete
deriving DecidableEq

def Fault.detail : Fault → String
  | .unexpected rest => "unexpected input at `" ++ String.ofList rest ++ "`"
  | .tooWide literal => "limb " ++ String.ofList literal.shown ++ " does not fit in 32 bits"
  | .incomplete => "incomplete input"

def Fault.message (fault : Fault) : String := "Invalid limb list: " ++ fault.detail

def readLiterals (text : List Char) : Except Fault (List Literal) :=
  let (literals, rest) := readShape (skipBlanks text)
  match skipBlanks rest with
  | [] => .ok literals
  | c :: cs => .error (.unexpected (c :: cs))

/-- The word that a literal denotes. Its digits are sound, so only its size can be at fault. -/
def Literal.word (literal : Literal) : Except Fault UInt32 :=
  match Numeral.readWord literal.radix literal.digits with
  | .ok word => .ok word
  | .error _ => .error (.tooWide literal)

/-- The words of all literals, or the fault of the first that has none. -/
def literalWords : List Literal → Except Fault (List UInt32)
  | [] => .ok []
  | literal :: literals =>
    match literal.word with
    | .error fault => .error fault
    | .ok word => (literalWords literals).map (word :: ·)

end Ident160.LimbList
