import PatternGuard.Text.Numeral
import PatternGuard.Text.Printable

/-!
# Quoted text

Text between quotes, with a backslash before what would not show or would end the quotation. A
character that is not printable, or that attaches to the one before it, is written by its code point
in braces.

Defines: `quoted` for text, `quotedChar` for one character.
-/

set_option autoImplicit false

namespace PatternGuard.Text

/-- How `c` is written inside a quotation that ends at `mark`. -/
def escaped (mark c : Char) : String :=
  match c with
  | '\x00' => "\\0"
  | '\t' => "\\t"
  | '\n' => "\\n"
  | '\r' => "\\r"
  | '\\' => "\\\\"
  | _ =>
    if c = mark then "\\" ++ c.toString
    else if isExtender c || !isPrintable c then "\\u\x7b" ++ hex c.toNat ++ "\x7d"
    else c.toString

/-- The text between double quotes. -/
def quoted (text : String) : String :=
  "\"" ++ String.join (text.toList.map (escaped '"')) ++ "\""

/-- The character between single quotes. -/
def quotedChar (c : Char) : String :=
  "'" ++ escaped '\'' c ++ "'"

end PatternGuard.Text
