/-!
# Character classes

A class of characters is stored as the ascending list of code points at which membership changes.
Characters below the first point are outside, those from the first point to the second are inside,
and so on. `CharClass.contains` reads membership off the list.

Defines: `CharClass`, `CharClass.contains`, and the class of blank characters.
-/

set_option autoImplicit false

namespace PatternGuard.Text

/-- A class of characters, given by the code points at which membership changes. -/
structure CharClass where
  /-- Ascending code points; membership is false before the first and flips at each. -/
  changes : List Nat

namespace CharClass

/-- Membership of code point `c` when it flips at each of the given points. -/
def flips : List Nat → Nat → Bool
  | [], _ => false
  | p :: ps, c => if c < p then false else !(flips ps c)

/-- Whether the class holds `c`. -/
def contains (k : CharClass) (c : Char) : Bool :=
  flips k.changes c.toNat

end CharClass

/-- Characters that count as white space when text is trimmed. -/
def blankClass : CharClass where
  changes := [
    0x9, 0xe, 0x20, 0x21, 0x85, 0x86, 0xa0, 0xa1, 0x1680, 0x1681, 0x2000, 0x200b, 0x2028, 0x202a,
    0x202f, 0x2030, 0x205f, 0x2060, 0x3000, 0x3001]

/-- Whether `c` is white space. -/
def isBlank (c : Char) : Bool := blankClass.contains c

/-- Whether the text is empty or white space only. -/
def isBlankText (text : String) : Bool := text.toList.all isBlank

end PatternGuard.Text
