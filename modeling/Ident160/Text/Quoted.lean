import Ident160.Digit
import Ident160.Text.Shown

/-!
Quoted characters and texts for messages. A quoted character stands in single quotes, a quoted
text in double ones; the enclosing quote, the backslash and a few controls have short escapes,
and every character that would not show on its own is written by its code point.
-/

namespace Ident160.Text

def codePointEscape (c : Char) : List Char :=
  "\\u\x7b".toList ++ Digit.hex c.toNat ++ ['\x7d']

def escapeChar (quote c : Char) : List Char :=
  match c with
  | '\x00' => ['\\', '0']
  | '\t' => ['\\', 't']
  | '\r' => ['\\', 'r']
  | '\n' => ['\\', 'n']
  | '\\' => ['\\', '\\']
  | c =>
    if c = quote then ['\\', c]
    else if isExtending c || !isShown c then codePointEscape c
    else [c]

def quoteChar (c : Char) : String :=
  String.ofList ('\'' :: escapeChar '\'' c ++ ['\''])

def quoteText (text : String) : String :=
  String.ofList ('"' :: text.toList.flatMap (escapeChar '"') ++ ['"'])

end Ident160.Text
