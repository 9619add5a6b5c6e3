import Ident160.Digit

/-!
The notation for lists of limbs, as a grammar without any order among its alternatives. A list
is bare, in braces or brackets, or in the dump of an array with a named member; blanks may stand
around every token; limbs are decimal, or hexadecimal after a mark, and are set apart by blanks
or one comma. `Derives text limbs` holds if some derivation of the text has these limbs.
-/

namespace Ident160.LimbList

inductive Literal where
  | decimal (digits : List Char)
  | hex (digits : List Char)
deriving DecidableEq

namespace Literal

/-- The digits as written, without a mark. -/
def digits : Literal → List Char
  | .decimal digits => digits
  | .hex digits => digits

def radix : Literal → Nat
  | .decimal _ => 10
  | .hex _ => 16

def value (literal : Literal) : Nat :=
  Digit.ofDigits literal.radix (literal.digits.map fun c => (Digit.value? literal.radix c).getD 0)

/-- A literal as messages show it: the mark of hexadecimal ones is always lowercase. -/
def shown : Literal → List Char
  | .decimal digits => digits
  | .hex digits => '0' :: 'x' :: digits

end Literal

/-- The characters that may stand between tokens. -/
def isBlank (c : Char) : Bool := c = ' ' || c = '\t' || c = '\r' || c = '\n'

def Blanks (text : List Char) : Prop := ∀ c ∈ text, isBlank c = true

inductive IsLiteral : List Char → Literal → Prop
  | decimal (digits : List Char) (nonempty : digits ≠ [])
      (all_digits : ∀ c ∈ digits, c.isDigit = true) : IsLiteral digits (.decimal digits)
  | hex (mark : Char) (digits : List Char) (is_mark : mark = 'x' ∨ mark = 'X')
      (nonempty : digits ≠ []) (all_digits : ∀ c ∈ digits, Digit.isHex c = true) :
      IsLiteral ('0' :: mark :: digits) (.hex digits)

inductive IsSeparator : List Char → Prop
  | comma (before after : List Char) (before_blank : Blanks before) (after_blank : Blanks after) :
      IsSeparator (before ++ ',' :: after)
  | blanks (text : List Char) (blank : Blanks text) (nonempty : text ≠ []) : IsSeparator text

/-- What follows the first limb: each further limb behind a separator. -/
inductive Continues : List Char → List Literal → Prop
  | done : Continues [] []
  | more (separator text rest : List Char) (literal : Literal) (literals : List Literal)
      (is_separator : IsSeparator separator) (is_literal : IsLiteral text literal)
      (continues : Continues rest literals) :
      Continues (separator ++ text ++ rest) (literal :: literals)

inductive IsElements : List Char → List Literal → Prop
  | none : IsElements [] []
  | some (text rest : List Char) (literal : Literal) (literals : List Literal)
      (is_literal : IsLiteral text literal) (continues : Continues rest literals) :
      IsElements (text ++ rest) (literal :: literals)

inductive IsBracketed : List Char → List Literal → Prop
  | braces (before text after : List Char) (literals : List Literal) (before_blank : Blanks before)
      (elements : IsElements text literals) (after_blank : Blanks after) :
      IsBracketed ('\x7b' :: before ++ text ++ after ++ ['\x7d']) literals
  | brackets (before text after : List Char) (literals : List Literal)
      (before_blank : Blanks before) (elements : IsElements text literals)
      (after_blank : Blanks after) :
      IsBracketed ('[' :: before ++ text ++ after ++ [']']) literals

def memberName : List Char := "_M_elems".toList

inductive IsDump : List Char → List Literal → Prop
  | dump (b₁ b₂ b₃ text b₄ : List Char) (literals : List Literal) (blank₁ : Blanks b₁)
      (blank₂ : Blanks b₂) (blank₃ : Blanks b₃) (bracketed : IsBracketed text literals)
      (blank₄ : Blanks b₄) :
      IsDump ('\x7b' :: b₁ ++ memberName ++ b₂ ++ '=' :: b₃ ++ text ++ b₄ ++ ['\x7d']) literals

/-- A text is a limb list with the given limbs, read from left to right. -/
inductive Derives : List Char → List Literal → Prop
  | dump (before text after : List Char) (literals : List Literal) (before_blank : Blanks before)
      (is_dump : IsDump text literals) (after_blank : Blanks after) :
      Derives (before ++ text ++ after) literals
  | bracketed (before text after : List Char) (literals : List Literal)
      (before_blank : Blanks before) (is_bracketed : IsBracketed text literals)
      (after_blank : Blanks after) : Derives (before ++ text ++ after) literals
  | elements (before text after : List Char) (literals : List Literal)
      (before_blank : Blanks before) (is_elements : IsElements text literals)
      (after_blank : Blanks after) : Derives (before ++ text ++ after) literals

def Denotes (text : List Char) (words : List UInt32) : Prop :=
  ∃ literals, Derives text literals ∧ literals.map Literal.value = words.map UInt32.toNat

end Ident160.LimbList
